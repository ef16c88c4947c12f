import ClassDump.Proofs.Path.Descend
import ClassDump.Proofs.Store.Reach
import ClassDump.Store.World

/-! Where paths lead in a world. A path leads to a location by so many links, and names after it lead on from there; the
questions about a path are answered by what stands where it leads, unless it is too long or has too many links. -/

namespace ClassDump

namespace Place

/-- From a place, components reach a location, by so many links: from a removed directory they first lead up out of all
that was removed. -/
def Reach (root : Node) (n : Nat) (place : Place) (components : List String) (there : Location) : Prop :=
  ∃ rest, components = List.replicate place.removed.length ".." ++ rest ∧ root.Reach n place.location rest there

variable {root : Node} {n : Nat} {place : Place} {components : List String} {there : Location}

theorem locate_standing (root : Node) (links : Nat) (location : Location) (components : List String) :
    Place.locate root links ⟨location, []⟩ components = (⟨·, []⟩) <$> root.locate links location components := by
  rw [Place.locate]

theorem locate_up (root : Node) (links : Nat) (location : Location) {removed : List String} (hremoved : removed ≠ [])
    (rest : List String) :
    Place.locate root links ⟨location, removed⟩ (".." :: rest) =
      Place.locate root links ⟨location, removed.dropLast⟩ rest := by
  rw [Place.locate]
  exact fun h => hremoved (by simpa using h)

theorem locate_removed_nil (root : Node) (links : Nat) (location : Location) {removed : List String}
    (hremoved : removed ≠ []) : Place.locate root links ⟨location, removed⟩ [] = .ok ⟨location, removed⟩ := by
  cases removed with
  | nil => exact absurd rfl hremoved
  | cons _ _ =>
      rw [Place.locate]
      exact fun _ h => nomatch h

theorem locate_removed_name (root : Node) (links : Nat) (location : Location) {removed : List String}
    (hremoved : removed ≠ []) {name : String} (hname : name ≠ "..") (rest : List String) :
    Place.locate root links ⟨location, removed⟩ (name :: rest) = .error .noEntry := by
  cases removed with
  | nil => exact absurd rfl hremoved
  | cons _ _ =>
      rw [Place.locate]
      · exact fun _ h => nomatch h
      · exact fun _ _ _ h => hname h

theorem Reach.locate_append (h : place.Reach root n components there) (links : Nat) (rest : List String) :
    Place.locate root links place (components ++ rest) =
      if n ≤ links then (⟨·, []⟩) <$> root.locate (links - n) there rest else .error .tooManyLinks := by
  obtain ⟨location, removed⟩ := place
  obtain ⟨comps, rfl, hreach⟩ := h
  generalize hcount : removed.length = count
  induction count generalizing removed with
  | zero =>
      obtain rfl := List.length_eq_zero_iff.mp hcount
      rw [List.replicate_zero, List.nil_append, locate_standing, hreach.locate_append]
      split <;> rfl
  | succ count ih =>
      have hremoved := List.ne_nil_of_length_eq_add_one hcount
      rw [List.replicate_succ, List.cons_append, List.cons_append, locate_up _ _ _ hremoved]
      exact ih removed.dropLast (by simpa using hreach) (by simp [hcount])

theorem exists_reach_of_locate {links : Nat} (h : Place.locate root links place components = .ok ⟨there, []⟩) :
    ∃ n ≤ links, place.Reach root n components there := by
  obtain ⟨location, removed⟩ := place
  generalize hcount : removed.length = count at *
  induction count generalizing removed components with
  | zero =>
      obtain rfl := List.length_eq_zero_iff.mp hcount
      rw [locate_standing] at h
      cases hfound : root.locate links location components with
      | error errno =>
          rw [hfound] at h
          cases h
      | ok found =>
          rw [hfound] at h
          cases h
          obtain ⟨n, hn, hreach⟩ := Node.exists_reach_of_locate hfound
          exact ⟨n, hn, components, rfl, hreach⟩
  | succ count ih =>
      have hremoved := List.ne_nil_of_length_eq_add_one hcount
      cases components with
      | nil =>
          rw [locate_removed_nil _ _ _ hremoved] at h
          cases h
          exact absurd rfl hremoved
      | cons component rest =>
          by_cases hup : component = ".."
          · subst hup
            rw [locate_up _ _ _ hremoved] at h
            obtain ⟨n, hn, comps, hcomps, hreach⟩ := ih removed.dropLast h (by simp [hcount])
            refine ⟨n, hn, comps, ?_, hreach⟩
            simp only [List.length_dropLast, hcount, Nat.add_sub_cancel] at hcomps
            simp only [hcount, List.replicate_succ, List.cons_append, hcomps]
          · rw [locate_removed_name _ _ _ hremoved hup] at h
            cases h

/-- From a place that stands, every place that is found stands. -/
theorem removed_of_locate_standing {links : Nat} {location : Location} {found : Place}
    (h : Place.locate root links ⟨location, []⟩ components = .ok found) : found.removed = [] := by
  rw [locate_standing] at h
  cases hlocate : root.locate links location components with
  | error errno =>
      rw [hlocate] at h
      cases h
  | ok there =>
      rw [hlocate] at h
      cases h
      rfl

/-- No name leads to a place in a removed directory. -/
theorem removed_of_locate_concat {links : Nat} {name : String} (hname : name ≠ "..") {found : Place}
    (h : Place.locate root links place (components ++ [name]) = .ok found) : found.removed = [] := by
  obtain ⟨location, removed⟩ := place
  induction components generalizing removed with
  | nil =>
      by_cases hremoved : removed = []
      · subst hremoved
        exact removed_of_locate_standing h
      · rw [List.nil_append, locate_removed_name _ _ _ hremoved hname] at h
        cases h
  | cons component rest ih =>
      by_cases hremoved : removed = []
      · subst hremoved
        exact removed_of_locate_standing h
      · by_cases hup : component = ".."
        · rw [hup, List.cons_append, locate_up _ _ _ hremoved] at h
          exact ih _ h
        · rw [List.cons_append, locate_removed_name _ _ _ hremoved hup] at h
          cases h

end Place

namespace World

def start (world : World) (path : Path) : Place :=
  if path.isAbsolute then ⟨[], []⟩ else world.workingDir

/-- The path leads to the location by so many links. -/
def Leads (world : World) (n : Nat) (path : Path) (there : Location) : Prop :=
  (world.start path).Reach world.root n path.parts there

def IsDirAt (world : World) (path : Path) (there : Location) : Prop :=
  world.locateFrom linkMax path = .ok ⟨there, []⟩ ∧ world.root.HasDir there

/-- The entry that the path names stands at the location; if it is a link, it is not followed. -/
def StandsAt (world : World) (path : Path) (location : Location) : Prop :=
  ∃ n above, world.Leads n path.parent above ∧ location = above ++ [path.name]

variable {world : World} {n m : Nat} {path : Path} {there final : Location} {names : List String}

theorem IsDirAt.unique (h : world.IsDirAt path there) (hfinal : world.IsDirAt path final) : there = final := by
  have hsame := h.1.symm.trans hfinal.1
  rw [Except.ok.injEq, Place.mk.injEq] at hsame
  exact hsame.1

theorem Leads.locateFrom_descend (h : world.Leads n path there) (hlength : (path.descend names).byteLength < pathMax)
    (links : Nat) :
    world.locateFrom links (path.descend names) =
      if n ≤ links then (⟨·, []⟩) <$> world.root.locate (links - n) there names else .error .tooManyLinks := by
  rw [locateFrom, if_neg (Nat.not_le.mpr hlength)]
  exact h.locate_append links names

theorem Leads.locateFrom (h : world.Leads n path there) (hlength : path.byteLength < pathMax) (hn : n ≤ linkMax) :
    world.locateFrom linkMax path = .ok ⟨there, []⟩ := by
  have hlocate := @Leads.locateFrom_descend _ _ _ _ [] h (by simpa using hlength) linkMax
  rw [Path.descend_nil, if_pos hn, Node.locate_eq] at hlocate
  exact hlocate

theorem exists_leads_of_locateFrom {links : Nat} (h : world.locateFrom links path = .ok ⟨there, []⟩) :
    ∃ n ≤ links, world.Leads n path there ∧ path.byteLength < pathMax := by
  rw [locateFrom] at h
  split at h
  · cases h
  · next hlength =>
    obtain ⟨n, hn, hreach⟩ := Place.exists_reach_of_locate h
    exact ⟨n, hn, hreach, Nat.not_le.mp hlength⟩

theorem removed_of_locateFrom {links : Nat} {place : Place} (habsolute : path.isAbsolute = true)
    (h : world.locateFrom links path = .ok place) : place.removed = [] := by
  unfold World.locateFrom at h
  rw [habsolute, if_pos rfl] at h
  split at h
  · cases h
  · exact Place.removed_of_locate_standing h

/-- Only by double dots a path leads to a place in a removed directory. -/
theorem removed_of_locateFrom_descend {links : Nat} {place : Place} (hne : names ≠ [])
    (hnames : ∀ name ∈ names, name ≠ "..") (h : world.locateFrom links (path.descend names) = .ok place) :
    place.removed = [] := by
  unfold World.locateFrom at h
  split at h
  · cases h
  · rw [← List.dropLast_concat_getLast hne, Path.parts_descend, ← List.append_assoc] at h
    exact Place.removed_of_locate_concat (hnames _ (List.getLast_mem hne)) h

theorem Leads.descend (h : world.Leads n path there) (hnames : world.root.Reach m there names final) :
    world.Leads (n + m) (path.descend names) final := by
  obtain ⟨rest, hrest, hreach⟩ := h
  refine ⟨rest ++ names, ?_, hreach.append hnames⟩
  change path.parts ++ names = List.replicate (world.start path).removed.length ".." ++ (rest ++ names)
  rw [hrest, List.append_assoc]

/-- A path leads to the same location in every world in which nothing on its way was changed. -/
theorem Leads.mono {other : World} (h : world.Leads n path there) (hworking : other.workingDir = world.workingDir)
    (hkept : ∀ location node, world.root.bare? location = some node → other.root.bare? location = some node) :
    other.Leads n path there := by
  have hstart : other.start path = world.start path := by rw [start, start, hworking]
  obtain ⟨rest, hrest, hreach⟩ := h
  rw [← hstart] at hrest hreach
  exact ⟨rest, hrest, hreach.mono hkept⟩

/-- Where names after a path lead, the path itself leads somewhere, and the names lead on from there. -/
theorem Leads.split (h : world.Leads n (path.descend names) there) (hnames : ∀ name ∈ names, name ≠ "..") :
    ∃ k l mid, n = k + l ∧ world.Leads k path mid ∧ world.root.Reach l mid names there := by
  obtain ⟨rest, hparts, hreach⟩ := h
  change path.parts ++ names = List.replicate (world.start path).removed.length ".." ++ rest at hparts
  obtain ⟨first, hfirst, hrest⟩ : ∃ first,
      path.parts = List.replicate (world.start path).removed.length ".." ++ first ∧ rest = first ++ names := by
    rcases List.append_eq_append_iff.mp hparts with ⟨ups, hups, hsame⟩ | hpart
    · cases ups with
      | nil => exact ⟨[], by rw [List.append_nil, hups, List.append_nil], hsame.symm⟩
      | cons up more =>
          have hup : up ∈ List.replicate (world.start path).removed.length ".." := by
            rw [hups]
            exact List.mem_append_right _ List.mem_cons_self
          exact absurd (List.eq_of_mem_replicate hup) (hnames up (hsame ▸ List.mem_cons_self))
    · exact hpart
  obtain ⟨k, l, mid, hn, hpath, hlast⟩ := hreach.split hrest
  exact ⟨k, l, mid, hn, ⟨first, hfirst, hpath⟩, hlast⟩

theorem Leads.eq_start (h : world.Leads n path there) (hparts : path.parts = []) :
    n = 0 ∧ there = (world.start path).location := by
  obtain ⟨rest, hrest, hreach⟩ := h
  rw [hparts] at hrest
  obtain ⟨-, rfl⟩ := List.append_eq_nil_iff.mp hrest.symm
  cases hreach
  exact ⟨rfl, rfl⟩

theorem Leads.unique (h : world.Leads n path there) (hother : world.Leads m path final) : n = m ∧ there = final := by
  obtain ⟨rest, hrest, hreach⟩ := h
  obtain ⟨other, hparts, hreached⟩ := hother
  rw [hrest] at hparts
  obtain rfl := List.append_cancel_left hparts
  exact hreach.unique hreached

theorem stat_of_locateFrom (h : world.locateFrom linkMax path = .ok ⟨there, []⟩) :
    world.stat path =
      match world.root.get? there with
      | some node => .ok node
      | none => .error .noEntry := by
  unfold World.stat
  rw [h]
  rfl

/-- A path that leads nowhere names nothing. -/
theorem stat_of_locateFrom_error {errno : Errno} (h : world.locateFrom linkMax path = .error errno) :
    world.stat path = .error errno := by
  unfold World.stat
  rw [h]
  rfl

theorem stat_of_tooLong (hlength : pathMax ≤ path.byteLength) : world.stat path = .error .nameTooLong :=
  stat_of_locateFrom_error (if_pos hlength)

theorem exists_node_of_stat {node : Node} (h : world.stat path = .ok node) :
    ∃ place, world.locateFrom linkMax path = .ok place ∧ place.node? world.root = some node := by
  unfold World.stat at h
  cases hlocate : world.locateFrom linkMax path with
  | error errno =>
      rw [hlocate] at h
      cases h
  | ok place =>
      rw [hlocate] at h
      dsimp only [bind, Except.bind] at h
      split at h
      · next found hfound =>
        cases h
        exact ⟨place, rfl, hfound⟩
      · cases h

theorem short_of_stat {node : Node} (h : world.stat path = .ok node) : path.byteLength < pathMax := by
  refine Nat.not_le.mp fun hlong => ?_
  rw [stat_of_tooLong hlong] at h
  cases h

/-- What a path names is what stands where it leads, if it is short enough and has few enough links. -/
theorem Leads.locateFrom_eq_ite (h : world.Leads n path there) :
    world.locateFrom linkMax path =
      if pathMax ≤ path.byteLength then .error .nameTooLong
      else if n ≤ linkMax then .ok ⟨there, []⟩ else .error .tooManyLinks := by
  split
  · next hlength => exact if_pos hlength
  · next hlength =>
    have hlocate := @Leads.locateFrom_descend _ _ _ _ [] h (by simpa using hlength) linkMax
    rw [Path.descend_nil, Node.locate_eq] at hlocate
    exact hlocate

theorem Leads.stat (h : world.Leads n path there) :
    world.stat path =
      if pathMax ≤ path.byteLength then .error .nameTooLong
      else if n ≤ linkMax then
        match world.root.get? there with
        | some node => .ok node
        | none => .error .noEntry
      else .error .tooManyLinks := by
  have hlocate := h.locateFrom_eq_ite
  split
  · next hlength => exact stat_of_locateFrom_error (hlocate.trans (if_pos hlength))
  · next hlength =>
    rw [if_neg hlength] at hlocate
    split
    · next hn => exact stat_of_locateFrom (hlocate.trans (if_pos hn))
    · next hn => exact stat_of_locateFrom_error (hlocate.trans (if_neg hn))

theorem Leads.get?_of_stat {node : Node} (h : world.Leads n path there) (hstat : world.stat path = .ok node) :
    world.root.get? there = some node := by
  rw [h.stat] at hstat
  split at hstat
  · cases hstat
  · split at hstat
    · cases hget : world.root.get? there with
      | none =>
          rw [hget] at hstat
          cases hstat
      | some found =>
          rw [hget] at hstat
          cases hstat
          rfl
    · cases hstat

theorem ask_eq_true {question : Node → Bool} (h : world.ask path question = .ok true) :
    path.hasNul = false ∧ ∃ node, world.stat path = .ok node ∧ question node = true := by
  unfold ask at h
  split at h
  · cases h
  · next hnul =>
    refine ⟨by simpa using hnul, ?_⟩
    split at h
    · next node hnode => exact ⟨node, hnode, Except.ok.inj h⟩
    · split at h <;> cases h

theorem ask_of_stat {question : Node → Bool} {node : Node} (hnul : path.hasNul = false)
    (h : world.stat path = .ok node) :
    world.ask path question = .ok (question node) := by
  unfold ask
  rw [hnul, h]
  rfl

theorem ask_of_noEntry {question : Node → Bool} (hnul : path.hasNul = false) (h : world.stat path = .error .noEntry) :
    world.ask path question = .ok false := by
  unfold ask
  rw [hnul, h]
  rfl

theorem ask_of_hasNul (h : path.hasNul = true) (question : Node → Bool) : world.ask path question = .ok false :=
  if_pos h

/-- Whether a path can be asked about does not depend on the question. -/
theorem exists_ask {question : Node → Bool} {answer : Bool} (h : world.ask path question = .ok answer)
    (others : Node → Bool) : ∃ answer, world.ask path others = .ok answer := by
  unfold ask at h ⊢
  split at h
  · next hnul => exact ⟨false, if_pos hnul⟩
  · next hnul =>
    rw [if_neg hnul]
    split at h
    · exact ⟨_, rfl⟩
    · split at h
      · next habsent => exact ⟨false, if_pos habsent⟩
      · cases h

theorem ask_ne_true_of_stat {question : Node → Bool} {errno : Errno} (h : world.stat path = .error errno) :
    world.ask path question ≠ .ok true := by
  intro htrue
  obtain ⟨-, node, hnode, -⟩ := ask_eq_true htrue
  rw [h] at hnode
  cases hnode

theorem hasNul_of_isDir (h : world.isDir path = .ok true) : path.hasNul = false :=
  (ask_eq_true h).1

theorem IsDirAt.isDir {there : Location} (h : world.IsDirAt path there) (hnul : path.hasNul = false) :
    world.isDir path = .ok true := by
  obtain ⟨entries, hentries⟩ := Node.hasDir_iff.mp h.2
  have hstat := stat_of_locateFrom h.1
  rw [hentries] at hstat
  exact ask_of_stat hnul hstat

/-- A path that names a directory stands for a location, unless it is relative to a directory that was removed. -/
theorem exists_isDirAt (hstands : path.isAbsolute = true ∨ world.workingDir.removed = [])
    (h : world.isDir path = .ok true) : ∃ there, world.IsDirAt path there := by
  obtain ⟨-, node, hstat, hnode⟩ := ask_eq_true h
  obtain ⟨⟨there, removed⟩, hlocate, hfound⟩ := exists_node_of_stat hstat
  obtain rfl : removed = [] := by
    by_cases habsolute : path.isAbsolute = true
    · exact removed_of_locateFrom habsolute hlocate
    · have hworking : world.workingDir = ⟨world.workingDir.location, []⟩ := by
        rw [← hstands.resolve_left habsolute]
      unfold World.locateFrom at hlocate
      rw [if_neg habsolute, hworking] at hlocate
      split at hlocate
      · cases hlocate
      · exact Place.removed_of_locate_standing hlocate
  exact ⟨there, hlocate, Node.hasDir_of_isDir hfound hnode⟩

end World
end ClassDump
