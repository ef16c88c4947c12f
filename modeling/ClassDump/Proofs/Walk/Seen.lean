import ClassDump.Proofs.Store.Slot
import ClassDump.Proofs.Walk.Listing

/-! What a listing shows of a directory that a path leads to, entry by entry. An entry is shown as a directory if it is
one or if it is a link that leads to one. -/

namespace ClassDump.World

variable {world : World} {n : Nat} {path : Path} {there : Location} {entries : List (String × Node)} {name : String}

/-- What the path of an entry is found to name is reached from the directory of the entry. -/
theorem Leads.exists_reach_of_stat (h : world.Leads n path there) {node : Node}
    (hstat : world.stat (path.child name) = .ok node) :
    ∃ m final, world.root.Reach m there [name] final ∧ n + m ≤ linkMax ∧ world.root.get? final = some node ∧
      (path.child name).byteLength < pathMax := by
  obtain ⟨place, hlocate, -⟩ := exists_node_of_stat hstat
  have hlength := short_of_stat hstat
  rw [Path.child_eq_descend, h.locateFrom_descend hlength] at hlocate
  split at hlocate
  · next hn =>
    cases hfound : world.root.locate (linkMax - n) there [name] with
    | error errno =>
        rw [hfound] at hlocate
        cases hlocate
    | ok final =>
        obtain ⟨m, hm, hreach⟩ := Node.exists_reach_of_locate hfound
        exact ⟨m, final, hreach, by omega, (h.descend hreach).get?_of_stat hstat, hlength⟩
  · cases hlocate

theorem Leads.isLink_child (h : world.Leads n path there) (hn : n ≤ linkMax) (hname : LegalName name)
    (hlength : (path.child name).byteLength < pathMax) (hnul : (path.child name).hasNul = false) {node : Node}
    (hnode : world.root.get? (there ++ [name]) = some node) : world.isLink (path.child name) = node.isLink := by
  obtain ⟨entries, hentries⟩ := Node.hasDir_iff.mp (Node.hasDir_of_get?_append hnode)
  unfold isLink
  rw [hnul, h.lstat hn hentries hname hlength hnode]
  rfl

/-- A listing shows what stands in the directory. -/
theorem mem_seen_iff (hentries : world.root.get? there = some (.dir entries)) {isDir : Bool} :
    ⟨name, isDir⟩ ∈ (Node.dir entries).children.map (world.seen path) ↔
      ∃ node, world.root.bare? (there ++ [name]) = some node ∧ (world.seen path (name, node)).isDir = isDir := by
  have hbare : ∀ node : Node, (world.seen path (name, node.bare)).isDir = (world.seen path (name, node)).isDir := by
    intro node
    cases node <;> rfl
  rw [Node.bare?, Node.get?_child hentries]
  simp only [List.mem_map, Prod.exists, Option.map_eq_some_iff]
  constructor
  · rintro ⟨other, node, hmem, heq⟩
    obtain ⟨rfl, hisDir⟩ := Listed.mk.inj heq
    exact ⟨node.bare, ⟨node, Node.mem_distinct_iff.mp hmem, rfl⟩, (hbare node).trans hisDir⟩
  · rintro ⟨_, ⟨node, hnode, rfl⟩, rfl⟩
    refine ⟨name, node, Node.mem_distinct_iff.mpr hnode, ?_⟩
    rw [hbare]
    rfl

theorem isDir_seen_iff {node : Node} :
    (world.seen path (name, node)).isDir = true ↔
      node.isDir = true ∨
        node.isLink = true ∧ ∃ found, world.stat (path.child name) = .ok found ∧ found.isDir = true := by
  simp only [seen, Bool.or_eq_true, Bool.and_eq_true]
  refine or_congr_right (and_congr_right fun _ => ?_)
  cases world.stat (path.child name) <;> simp [Except.toOption]

/-- Where the path of an entry leads to a directory and is not taken for a link, the entry is that directory. -/
theorem exists_leads_of_not_isLink {final : Location} (h : world.IsDirAt (path.child name) final)
    (hname : LegalName name) (hnul : (path.child name).hasNul = false)
    (hlink : world.isLink (path.child name) = false) :
    ∃ n ≤ linkMax, ∃ there, world.Leads n path there ∧ world.Leads n (path.child name) final ∧
      final = there ++ [name] := by
  obtain ⟨n, hn, hleads, hlength⟩ := exists_leads_of_locateFrom h.1
  obtain ⟨k, l, there, rfl, hpath, hreach⟩ := hleads.split (List.forall_mem_singleton.mpr hname.isName.2.1)
  refine ⟨k + l, hn, there, ?_⟩
  cases hreach with
  | dot _ _ => exact absurd rfl hname.isName.1
  | up _ _ => exact absurd rfl hname.isName.2.1
  | down _ _ _ hrest =>
      cases hrest
      exact ⟨hpath, hleads, rfl⟩
  | link _ hnode _ =>
      have hget := (Node.bare?_eq_some_iff rfl).mp hnode
      have htaken := hpath.isLink_child (by omega) hname hlength hnul hget
      rw [hlink] at htaken
      cases htaken

/-- The directory that a path leads to is listed unless the written path is too long. -/
theorem Leads.list_eq (h : world.Leads n path there) (hn : n ≤ linkMax) {text : String}
    (hfault : world.faults.list.lookup text = none) (htext : path.byteLength ≤ text.utf8ByteSize)
    (hentries : world.root.get? there = some (.dir entries)) :
    world.list text path =
      if pathMax ≤ text.utf8ByteSize then .error (.refused .nameTooLong (some text) none)
      else .ok ((Node.dir entries).children.map (world.seen path)) := by
  split
  · next hlong =>
    unfold World.list
    simp only [hfault, if_pos hlong]
  · next hshort =>
    have hlength := Nat.lt_of_le_of_lt htext (Nat.not_le.mp hshort)
    have hstat := stat_of_locateFrom (h.locateFrom hlength hn)
    rw [hentries] at hstat
    exact list_of_stat hfault (Nat.not_le.mp hshort) hstat

/-- A link is listed as something other than a directory, unless its path leads to one over few enough links. -/
theorem Leads.mem_listed_of_link (h : world.Leads n path there) {text : String} {listed : List Listed}
    (hlist : world.list text path = .ok listed) {target : String}
    (hnode : world.root.bare? (there ++ [name]) = some (.link target))
    (hfar : ∀ m final, world.Leads m (path.child name) final → world.root.HasDir final → linkMax < m) :
    ⟨name, false⟩ ∈ listed := by
  obtain ⟨-, -, entries, hstat, rfl⟩ := exists_entries_of_list hlist
  refine (mem_seen_iff (h.get?_of_stat hstat)).mpr ⟨_, hnode, Bool.eq_false_iff.mpr fun hseen => ?_⟩
  rcases isDir_seen_iff.mp hseen with hdir | ⟨-, found, hfound, hdir⟩
  · cases hdir
  · obtain ⟨m, final, hreach, hfew, hget, -⟩ := h.exists_reach_of_stat hfound
    have hmany := hfar (n + m) final (h.descend hreach) (Node.hasDir_of_isDir hget hdir)
    omega

theorem legalName_of_list {text : String} {listed : List Listed} {entry : Listed} (hlegal : world.root.Legal)
    (h : world.list text path = .ok listed) (hentry : entry ∈ listed) : LegalName entry.name := by
  obtain ⟨-, -, entries, hstat, rfl⟩ := exists_entries_of_list h
  obtain ⟨⟨name, node⟩, hmem, rfl⟩ := List.mem_map.mp hentry
  have hlookup := Node.mem_distinct_iff.mp hmem
  obtain ⟨⟨location, removed⟩, -, hnode⟩ := exists_node_of_stat hstat
  cases removed with
  | nil =>
      have hchild := (Node.get?_child hnode name).trans hlookup
      have hbare : world.root.bare? (location ++ [name]) = some node.bare := by
        rw [Node.bare?, hchild]
        rfl
      exact hlegal _ _ hbare name (by simp)
  | cons first rest =>
      -- a directory that was removed is empty
      cases hnode
      cases hlookup

/-- What can be listed is a directory that stands, or else one that was removed, and that is empty. -/
theorem isDirAt_or_removed_of_list {text : String} {listed : List Listed} (h : world.list text path = .ok listed) :
    (∃ there, world.IsDirAt path there) ∨
      listed = [] ∧ ∃ place, world.locateFrom linkMax path = .ok place ∧ place.removed ≠ [] := by
  obtain ⟨-, -, entries, hstat, rfl⟩ := exists_entries_of_list h
  obtain ⟨⟨location, removed⟩, hlocate, hnode⟩ := exists_node_of_stat hstat
  cases removed with
  | nil => exact .inl ⟨location, hlocate, Node.hasDir_iff.mpr ⟨entries, hnode⟩⟩
  | cons first rest =>
      cases hnode
      exact .inr ⟨rfl, _, hlocate, List.cons_ne_nil _ _⟩

end ClassDump.World
