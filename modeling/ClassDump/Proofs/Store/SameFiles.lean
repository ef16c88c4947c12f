import ClassDump.Proofs.Store.Leads
import ClassDump.Proofs.Walk.Listing

/-! Worlds with the same files. A directory lists its entries in some order, and the order makes no difference to where
paths lead, to the questions about them, and to which directories can be listed. -/

namespace ClassDump

namespace Node

variable {root other : Node} {expand : Location → List String → Except Errno Location} {here : Location}

theorem follow_of_not_hasDir (hdir : ¬root.HasDir here) (component : String) (rest : List String) :
    root.follow expand here (component :: rest) =
      match root.bare? here with
      | none => .error .noEntry
      | some _ => .error .notDirectory := by
  rw [follow, bare?]
  cases hget : root.get? here with
  | none => rfl
  | some node =>
      cases node with
      | dir entries => exact absurd (hasDir_iff.mpr ⟨entries, hget⟩) hdir
      | file data => rfl
      | link target => rfl
      | special => rfl

theorem follow_of_tooLong (hdir : root.HasDir here) {name : String} (hlong : nameMax < name.utf8ByteSize)
    (hdot : name ≠ ".") (hup : name ≠ "..") (rest : List String) :
    root.follow expand here (name :: rest) = .error .nameTooLong := by
  obtain ⟨entries, hentries⟩ := hasDir_iff.mp hdir
  rw [follow, hentries]
  simp only [if_neg hdot, if_neg hup, if_pos hlong]

section Congr

variable (h : root.bare? = other.bare?)
include h

theorem follow_congr (expand : Location → List String → Except Errno Location) (here : Location)
    (components : List String) : root.follow expand here components = other.follow expand here components := by
  induction components generalizing here with
  | nil => rfl
  | cons component rest ih =>
      have hsame : root.HasDir here ↔ other.HasDir here := by rw [HasDir, HasDir, h]
      by_cases hdir : root.HasDir here
      · have hother := hsame.mp hdir
        by_cases hdot : component = "."
        · rw [hdot, follow_dot hdir, follow_dot hother, ih]
        by_cases hup : component = ".."
        · rw [hup, follow_up hdir, follow_up hother, ih]
        by_cases hlong : nameMax < component.utf8ByteSize
        · rw [follow_of_tooLong hdir hlong hdot hup, follow_of_tooLong hother hlong hdot hup]
        · have hname : IsName component := ⟨hdot, hup, Nat.not_lt.mp hlong⟩
          rw [follow_name hname hdir, follow_name hname hother, h, ih]
      · rw [follow_of_not_hasDir hdir, follow_of_not_hasDir (mt hsame.mpr hdir), h]

theorem locate_congr (links : Nat) : root.locate links = other.locate links := by
  funext here components
  induction links generalizing here components with
  | zero => exact follow_congr h _ here components
  | succ links ih =>
      rw [locate, locate, follow_congr h, show root.locate links = other.locate links from funext₂ ih]

end Congr

end Node

theorem Place.locate_congr {root other : Node} (h : root.bare? = other.bare?) (links : Nat) (place : Place)
    (components : List String) : place.locate root links components = place.locate other links components := by
  obtain ⟨location, removed⟩ := place
  generalize hcount : removed.length = count
  induction count generalizing removed components with
  | zero =>
      obtain rfl := List.length_eq_zero_iff.mp hcount
      rw [locate_standing, locate_standing, Node.locate_congr h]
  | succ count ih =>
      have hremoved := List.ne_nil_of_length_eq_add_one hcount
      cases components with
      | nil => rw [locate_removed_nil _ _ _ hremoved, locate_removed_nil _ _ _ hremoved]
      | cons component rest =>
          by_cases hup : component = ".."
          · rw [hup, locate_up _ _ _ hremoved, locate_up _ _ _ hremoved]
            exact ih _ _ (by simp [hcount])
          · rw [locate_removed_name _ _ _ hremoved hup, locate_removed_name _ _ _ hremoved hup]

namespace World

/-- The worlds have the same files, but for the order in which directories list their entries, and the same listings
fail in them. -/
structure SameFiles (world other : World) : Prop where
  tree : world.root.bare? = other.root.bare?
  workingDir : world.workingDir = other.workingDir
  refused : world.faults.list = other.faults.list

namespace SameFiles

variable {world other : World} (h : world.SameFiles other)
include h

theorem symm : other.SameFiles world :=
  ⟨h.tree.symm, h.workingDir.symm, h.refused.symm⟩

theorem locateFrom_eq (links : Nat) (path : Path) : world.locateFrom links path = other.locateFrom links path := by
  unfold locateFrom
  rw [h.workingDir, Place.locate_congr h.tree]

theorem stat_map_bare (path : Path) : (world.stat path).map Node.bare = (other.stat path).map Node.bare := by
  unfold World.stat
  rw [h.locateFrom_eq]
  cases other.locateFrom linkMax path with
  | error errno => rfl
  | ok place =>
      have hnode : (place.node? world.root).map Node.bare = (place.node? other.root).map Node.bare := by
        unfold Place.node?
        split
        · exact congrFun h.tree place.location
        · rfl
      dsimp only [bind, Except.bind]
      cases hfound : place.node? world.root <;> cases hsame : place.node? other.root <;> rw [hfound, hsame] at hnode <;>
        simp_all [Except.map]

theorem isDir_eq (path : Path) : world.isDir path = other.isDir path := by
  have hsame := h.stat_map_bare path
  unfold isDir ask
  cases hstat : world.stat path with
  | error errno =>
      cases hother : other.stat path with
      | error errno' =>
          rw [hstat, hother] at hsame
          cases hsame
          rfl
      | ok node =>
          rw [hstat, hother] at hsame
          cases hsame
  | ok node =>
      cases hother : other.stat path with
      | error errno =>
          rw [hstat, hother] at hsame
          cases hsame
      | ok found =>
          rw [hstat, hother] at hsame
          have hbare : node.bare = found.bare := Except.ok.inj hsame
          have hdir : node.isDir = found.isDir := by
            cases node <;> cases found <;> cases hbare <;> rfl
          simp only [hdir]

theorem isDirAt_iff (path : Path) (there : Location) : world.IsDirAt path there ↔ other.IsDirAt path there := by
  rw [IsDirAt, IsDirAt, h.locateFrom_eq, Node.HasDir, Node.HasDir, h.tree]

theorem exists_list_of_list {text : String} {path : Path} {listed : List Listed}
    (hlist : world.list text path = .ok listed) : ∃ shown, other.list text path = .ok shown := by
  obtain ⟨hfault, hshort, entries, hstat, -⟩ := exists_entries_of_list hlist
  have hsame := h.stat_map_bare path
  rw [hstat] at hsame
  cases hother : other.stat path with
  | error errno =>
      rw [hother] at hsame
      cases hsame
  | ok node =>
      rw [hother] at hsame
      have hbare : Node.bare (.dir entries) = node.bare := Except.ok.inj hsame
      obtain ⟨others, rfl⟩ := Node.bare_eq_dir_iff.mp hbare.symm
      exact ⟨_, list_of_stat (h.refused ▸ hfault) hshort hother⟩

end SameFiles

end World
end ClassDump
