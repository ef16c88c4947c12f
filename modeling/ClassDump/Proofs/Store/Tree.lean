import ClassDump.Store.Change
import Mathlib.Logic.Function.Basic

/-! The tree of files seen entry by entry. What stands at a location is a file or a link with all that it says, or a
directory of which only that it is one counts. Making a directory, removing a file or link and putting one into a
directory change this view at a single location. -/

namespace ClassDump.Node

/-- What is seen of a node without looking into it. -/
def bare : Node → Node
  | .dir _ => .dir []
  | node => node

/-- What stands at a location, directories without their entries. -/
def bare? (root : Node) (location : Location) : Option Node :=
  (root.get? location).map bare

def HasDir (root : Node) (location : Location) : Prop :=
  root.bare? location = some (.dir [])

theorem bare_eq_dir_iff {node : Node} : node.bare = .dir [] ↔ ∃ entries, node = .dir entries := by
  cases node <;> simp [bare]

theorem bare_of_isDir_eq_false {node : Node} (h : node.isDir = false) : node.bare = node := by
  cases node <;> simp_all [bare, isDir]

theorem hasDir_iff {root : Node} {location : Location} :
    root.HasDir location ↔ ∃ entries, root.get? location = some (.dir entries) := by
  rw [HasDir, bare?, Option.map_eq_some_iff]
  constructor
  · rintro ⟨node, hnode, hbare⟩
    obtain ⟨entries, rfl⟩ := bare_eq_dir_iff.mp hbare
    exact ⟨entries, hnode⟩
  · rintro ⟨entries, h⟩
    exact ⟨.dir entries, h, rfl⟩

theorem isDir_iff {node : Node} : node.isDir = true ↔ ∃ entries, node = .dir entries := by
  cases node <;> simp [isDir]

theorem hasDir_of_isDir {root node : Node} {location : Location} (hget : root.get? location = some node)
    (hnode : node.isDir = true) : root.HasDir location := by
  obtain ⟨entries, rfl⟩ := isDir_iff.mp hnode
  exact hasDir_iff.mpr ⟨entries, hget⟩

theorem isLink_iff {node : Node} : node.isLink = true ↔ ∃ target, node = .link target := by
  cases node <;> simp [isLink]

theorem isSpecial_iff {node : Node} : node.isSpecial = true ↔ node = .special := by
  cases node <;> simp [isSpecial]

theorem bare_eq_link_iff {node : Node} {target : String} : node.bare = .link target ↔ node = .link target := by
  cases node <;> simp [bare]

/-- A file or a link is seen whole. -/
theorem bare?_eq_some_iff {root : Node} {location : Location} {node : Node} (hnode : node.isDir = false) :
    root.bare? location = some node ↔ root.get? location = some node := by
  rw [bare?, Option.map_eq_some_iff]
  constructor
  · rintro ⟨found, hfound, hbare⟩
    have hsame : found = node := by
      cases found with
      | dir _ =>
          rw [bare] at hbare
          subst hbare
          cases hnode
      | file _ => exact hbare
      | link _ => exact hbare
      | special => exact hbare
    rw [hfound, hsame]
  · intro h
    exact ⟨node, h, bare_of_isDir_eq_false hnode⟩

theorem bare?_eq_none_iff {root : Node} {location : Location} :
    root.bare? location = none ↔ root.get? location = none := by
  simp [bare?]

theorem bare_of_bare? {root : Node} {location : Location} {node : Node} (h : root.bare? location = some node) :
    node.isDir = false ∨ node = .dir [] := by
  rw [bare?, Option.map_eq_some_iff] at h
  obtain ⟨found, -, rfl⟩ := h
  cases found <;> simp [bare, isDir]

theorem get?_cons (entries : List (String × Node)) (name : String) (rest : Location) :
    (Node.dir entries).get? (name :: rest) = (entries.lookup name).bind (·.get? rest) := by
  rw [get?]
  cases entries.lookup name <;> rfl

theorem get?_append (root : Node) (above below : Location) :
    root.get? (above ++ below) = (root.get? above).bind (·.get? below) := by
  induction above generalizing root with
  | nil => simp
  | cons name rest ih =>
      cases root with
      | dir entries =>
          rw [List.cons_append, get?_cons, get?_cons, Option.bind_assoc]
          congr 1
          funext node
          exact ih node
      | file _ => rfl
      | link _ => rfl
      | special => rfl

/-- What stands in something stands in a directory. -/
theorem hasDir_of_get?_append {root node : Node} {above : Location} {name : String} {rest : Location}
    (h : root.get? (above ++ name :: rest) = some node) : root.HasDir above := by
  rw [get?_append, Option.bind_eq_some_iff] at h
  obtain ⟨found, hfound, hnode⟩ := h
  cases found with
  | dir entries => exact hasDir_iff.mpr ⟨entries, hfound⟩
  | file _ => cases hnode
  | link _ => cases hnode
  | special => cases hnode

theorem hasDir_of_bare? {root node : Node} {above : Location} {name : String} {rest : Location}
    (h : root.bare? (above ++ name :: rest) = some node) : root.HasDir above := by
  rw [bare?, Option.map_eq_some_iff] at h
  obtain ⟨found, hfound, -⟩ := h
  exact hasDir_of_get?_append hfound

theorem hasDir_above {root node : Node} {above names : Location} {name : String}
    (h : root.bare? (above ++ (names ++ [name])) = some node) : root.HasDir (above ++ names) := by
  rw [← List.append_assoc] at h
  exact hasDir_of_bare? h

theorem hasDir_of_hasDir_append {root : Node} {above below : Location} (h : root.HasDir (above ++ below)) :
    root.HasDir above := by
  cases below with
  | nil => rwa [List.append_nil] at h
  | cons name rest => exact hasDir_of_bare? h

theorem hasDir_dropLast {root : Node} {location : Location} (h : root.HasDir location) :
    root.HasDir location.dropLast := by
  obtain ⟨rest, hrest⟩ := List.dropLast_prefix location
  exact hasDir_of_hasDir_append (hrest ▸ h)

theorem hasDir_root {root : Node} {location : Location} (h : root.HasDir location) : root.HasDir [] :=
  hasDir_of_hasDir_append (List.nil_append location ▸ h)

theorem get?_child {root : Node} {location : Location} {entries : List (String × Node)}
    (h : root.get? location = some (.dir entries)) (name : String) :
    root.get? (location ++ [name]) = entries.lookup name := by
  rw [get?_append, h, Option.bind_some, get?_cons]
  cases entries.lookup name <;> simp

section Alter

variable {root : Node} {parent : Location} {name : String}

/-- The tree with what stands at a location replaced by its image. -/
def replaced (root : Node) (location : Location) (change : Option Node → Option Node) : Node :=
  (alter change (some root) location).getD root

theorem eq_dir_of_hasDir_nil (h : root.HasDir []) : ∃ entries, root = .dir entries := by
  obtain ⟨entries, hentries⟩ := hasDir_iff.mp h
  exact ⟨entries, Option.some.inj ((get?_nil root).symm.trans hentries)⟩

/-- Where the way leads through directories, what is replaced lies in the entry that has the first name, and only that
entry changes. -/
theorem exists_replaced_cons_eq {first : String} {others : Location} (h : root.HasDir (first :: others)) (name : String)
    (change : Option Node → Option Node) :
    ∃ entries child, root = .dir entries ∧ entries.lookup first = some child ∧ child.HasDir others ∧
      root.replaced (first :: others ++ [name]) change =
        .dir (assign first (some (child.replaced (others ++ [name]) change)) entries) := by
  obtain ⟨entries, rfl⟩ := eq_dir_of_hasDir_nil (hasDir_root h)
  obtain ⟨found, hfound⟩ := hasDir_iff.mp h
  rw [get?_cons, Option.bind_eq_some_iff] at hfound
  obtain ⟨child, hlookup, hbelow⟩ := hfound
  have hchild : child.HasDir others := hasDir_iff.mpr ⟨found, hbelow⟩
  refine ⟨entries, child, rfl, hlookup, hchild, ?_⟩
  obtain ⟨inside, rfl⟩ := eq_dir_of_hasDir_nil (hasDir_root hchild)
  obtain ⟨next, more, hmore⟩ : ∃ next more, others ++ [name] = next :: more := by
    cases others <;> simp
  rw [List.cons_append, hmore]
  simp only [replaced, alter, hlookup, Option.getD_some]

/-- Where the way leads through directories, what stands at a location or below it comes from the image. -/
theorem get?_replaced_append (change : Option Node → Option Node) (hparent : root.HasDir parent) (rest : Location) :
    (root.replaced (parent ++ [name]) change).get? (parent ++ name :: rest) =
      (change (root.get? (parent ++ [name]))).bind (·.get? rest) := by
  induction parent generalizing root with
  | nil =>
      obtain ⟨entries, rfl⟩ := eq_dir_of_hasDir_nil hparent
      have hlookup : (Node.dir entries).get? [name] = entries.lookup name := get?_child (get?_nil _) name
      simp only [List.nil_append, replaced, alter, Option.getD_some, get?_cons, lookup_assign_self, hlookup]
  | cons first others ih =>
      obtain ⟨entries, child, rfl, hlookup, hchild, hreplaced⟩ := exists_replaced_cons_eq hparent name change
      rw [hreplaced]
      simp only [List.cons_append, get?_cons, lookup_assign_self, hlookup, Option.bind_some]
      exact ih hchild

/-- What stands neither at the location nor below it is seen as before. -/
theorem bare?_replaced_of_not_prefix (change : Option Node → Option Node) (hparent : root.HasDir parent)
    {other : Location} (hother : ¬parent ++ [name] <+: other) :
    (root.replaced (parent ++ [name]) change).bare? other = root.bare? other := by
  induction parent generalizing root other with
  | nil =>
      obtain ⟨entries, rfl⟩ := eq_dir_of_hasDir_nil hparent
      cases other with
      | nil => rfl
      | cons first rest =>
          have hne : first ≠ name := by
            rintro rfl
            exact hother ⟨rest, rfl⟩
          simp only [List.nil_append, replaced, alter, Option.getD_some, bare?, get?_cons, lookup_assign_of_ne hne]
  | cons first others ih =>
      obtain ⟨entries, child, rfl, hlookup, hchild, hreplaced⟩ := exists_replaced_cons_eq hparent name change
      rw [hreplaced]
      cases other with
      | nil => rfl
      | cons head rest =>
          by_cases hhead : head = first
          · subst hhead
            have hrest : ¬others ++ [name] <+: rest := fun h => hother (by simpa using h)
            simp only [bare?, get?_cons, lookup_assign_self, hlookup, Option.bind_some]
            exact ih hchild hrest
          · simp only [bare?, get?_cons, lookup_assign_of_ne hhead]

/-- If neither the old nor the new thing at a location holds anything, one entry changes and no other. -/
theorem bare?_replaced {new : Option Node} (hparent : root.HasDir parent)
    (hold : ∀ first rest, root.get? (parent ++ name :: first :: rest) = none)
    (hnew : ∀ node ∈ new, ∀ first rest, node.get? (first :: rest) = none) :
    (root.replaced (parent ++ [name]) fun _ => new).bare? =
      Function.update root.bare? (parent ++ [name]) (new.map bare) := by
  funext other
  by_cases hother : parent ++ [name] <+: other
  · obtain ⟨rest, rfl⟩ := hother
    have hget := @get?_replaced_append root parent name (fun _ => new) hparent rest
    rw [List.append_assoc, List.singleton_append, bare?, hget]
    cases rest with
    | nil => simp
    | cons first rest =>
        have hne : parent ++ name :: first :: rest ≠ parent ++ [name] := by simp
        rw [Function.update_of_ne hne, bare?, hold]
        cases new with
        | none => rfl
        | some node => rw [Option.bind_some, hnew node rfl]
  · have hne : other ≠ parent ++ [name] := by
      rintro rfl
      exact hother (List.prefix_refl _)
    rw [Function.update_of_ne hne, bare?_replaced_of_not_prefix _ hparent hother]

end Alter

theorem get?_cons_of_isDir_eq_false {node : Node} (h : node.isDir = false) (first : String) (rest : Location) :
    node.get? (first :: rest) = none := by
  cases node <;> simp_all [isDir, get?]

theorem get?_below_of_not_hasDir {root : Node} {location : Location} (h : ¬root.HasDir location) (first : String)
    (rest : Location) : root.get? (location ++ first :: rest) = none := by
  cases hget : root.get? (location ++ first :: rest) with
  | none => rfl
  | some node => exact absurd (hasDir_of_get?_append hget) h

theorem not_hasDir_of_free {root : Node} {location : Location} (h : root.bare? location = none) :
    ¬root.HasDir location := by
  rw [HasDir, h]
  rintro ⟨⟩

section Change

variable {root : Node} {parent : Location} {name : String}

theorem bare?_put_dir (hparent : root.HasDir parent) (hfree : root.get? (parent ++ [name]) = none) :
    (root.put (parent ++ [name]) (.dir [])).bare? =
      Function.update root.bare? (parent ++ [name]) (some (.dir [])) := by
  have hdir : ¬root.HasDir (parent ++ [name]) := by simp [HasDir, bare?, hfree]
  refine @bare?_replaced _ _ _ (some (.dir [])) hparent (fun first rest => ?_) (fun node hnode first rest => ?_)
  · simpa using get?_below_of_not_hasDir hdir first rest
  · cases hnode
    rfl

theorem bare?_erase {node : Node} (hnode : node.isDir = false) (hthere : root.get? (parent ++ [name]) = some node) :
    (root.erase (parent ++ [name])).bare? = Function.update root.bare? (parent ++ [name]) none := by
  have hdir : ¬root.HasDir (parent ++ [name]) := by
    rw [HasDir, (bare?_eq_some_iff hnode).mpr hthere]
    rintro ⟨rfl⟩
    cases hnode
  refine @bare?_replaced _ _ _ none (hasDir_of_get?_append hthere) (fun first rest => ?_) nofun
  simpa using get?_below_of_not_hasDir hdir first rest

theorem bare?_put {node : Node} (hnode : node.isDir = false) (hparent : root.HasDir parent)
    (hplace : ¬root.HasDir (parent ++ [name])) :
    (root.put (parent ++ [name]) node).bare? = Function.update root.bare? (parent ++ [name]) (some node) := by
  have hput := @bare?_replaced _ _ _ (some node) hparent (fun first rest => by
    simpa using get?_below_of_not_hasDir hplace first rest) (fun other hother first rest => by
      cases hother
      exact get?_cons_of_isDir_eq_false hnode first rest)
  rwa [Option.map_some, bare_of_isDir_eq_false hnode] at hput

section Move

variable {node : Node} {target : Location} {last : String} (hnode : node.isDir = false)
  (hthere : root.get? (parent ++ [name]) = some node) (hparent : root.HasDir target)
include hnode hthere hparent

/-- What is moved to a location in a directory, at which no directory stands, is gone from where it was and stands
there. -/
theorem bare?_erase_put (hplace : ¬root.HasDir (target ++ [last])) :
    ((root.erase (parent ++ [name])).put (target ++ [last]) node).bare? =
      Function.update (Function.update root.bare? (parent ++ [name]) none) (target ++ [last]) (some node) := by
  have herase := bare?_erase hnode hthere
  have hbare := (bare?_eq_some_iff hnode).mpr hthere
  have hstill : (root.erase (parent ++ [name])).HasDir target := by
    rw [HasDir, herase, Function.update_of_ne]
    · exact hparent
    · rintro rfl
      rw [HasDir, hbare] at hparent
      cases hparent
      cases hnode
  have hplaceStill : ¬(root.erase (parent ++ [name])).HasDir (target ++ [last]) := by
    rw [HasDir, herase]
    by_cases hsame : target ++ [last] = parent ++ [name]
    · rw [hsame, Function.update_self]
      rintro ⟨⟩
    · rwa [Function.update_of_ne hsame]
  rw [← herase]
  exact bare?_put hnode hstill hplaceStill

/-- What is put at a free location and erased where it was is moved there. -/
theorem bare?_put_erase (hfree : root.bare? (target ++ [last]) = none) :
    ((root.put (target ++ [last]) node).erase (parent ++ [name])).bare? =
      Function.update (Function.update root.bare? (parent ++ [name]) none) (target ++ [last]) (some node) := by
  have hput := bare?_put hnode hparent (not_hasDir_of_free hfree)
  have hwas := (bare?_eq_some_iff hnode).mpr hthere
  have hne : parent ++ [name] ≠ target ++ [last] := by
    intro hsame
    rw [hsame, hfree] at hwas
    cases hwas
  have hstill : (root.put (target ++ [last]) node).get? (parent ++ [name]) = some node := by
    rw [← bare?_eq_some_iff hnode, hput, Function.update_of_ne hne, hwas]
  rw [bare?_erase hnode hstill, hput, Function.update_comm hne.symm]

end Move

theorem hasDir_of_moved {after node : Node} {old new location : Location} (hnode : node.isDir = false)
    (hwas : root.bare? old = some node) (hfree : root.bare? new = none)
    (hmoved : after.bare? = Function.update (Function.update root.bare? old none) new (some node)) :
    after.HasDir location ↔ root.HasDir location := by
  rw [HasDir, HasDir, hmoved]
  by_cases htarget : location = new
  · subst htarget
    rw [Function.update_self, hfree]
    constructor
    · rintro ⟨⟩
      cases hnode
    · rintro ⟨⟩
  rw [Function.update_of_ne htarget]
  by_cases hsource : location = old
  · subst hsource
    rw [Function.update_self, hwas]
    constructor
    · rintro ⟨⟩
    · rintro ⟨⟩
      cases hnode
  · rw [Function.update_of_ne hsource]

end Change

theorem mem_flattenEntries {entries : List (String × Node)} {name : String} {child : Node} (above : Location)
    (h : entries.lookup name = some child) {entry : Location × Node}
    (hentry : entry ∈ child.flatten (above ++ [name])) :
    entry ∈ flattenEntries above entries := by
  induction entries with
  | nil => cases h
  | cons first rest ih =>
      obtain ⟨other, found⟩ := first
      rw [flattenEntries, List.mem_append]
      rw [List.lookup_cons] at h
      by_cases hname : name = other
      · subst hname
        rw [beq_self_eq_true] at h
        cases h
        exact .inl hentry
      · rw [beq_false_of_ne hname] at h
        exact .inr (ih h)

theorem mem_flatten {root node : Node} {location : Location} (above : Location) (h : root.get? location = some node) :
    (above ++ location, node) ∈ root.flatten above := by
  induction location generalizing root above with
  | nil =>
      rw [get?_nil, Option.some.injEq] at h
      subst h
      rw [List.append_nil]
      cases root with
      | dir entries => exact List.mem_cons_self
      | file data => exact List.mem_cons_self
      | link target => exact List.mem_cons_self
      | special => exact List.mem_cons_self
  | cons name rest ih =>
      cases root with
      | file data => cases h
      | link target => cases h
      | special => cases h
      | dir entries =>
          rw [get?_cons, Option.bind_eq_some_iff] at h
          obtain ⟨child, hlookup, hchild⟩ := h
          have hbelow := ih (above ++ [name]) hchild
          rw [List.append_assoc] at hbelow
          rw [flatten, List.mem_cons]
          exact .inr (mem_flattenEntries above hlookup hbelow)

/-- What holds of everything in a tree holds of what is seen at a location. -/
theorem forall_of_flatten {root : Node} {holds : Location → Node → Prop}
    (h : ∀ entry ∈ root.flatten [], holds entry.1 entry.2.bare) {location : Location} {node : Node}
    (hnode : root.bare? location = some node) : holds location node := by
  rw [bare?, Option.map_eq_some_iff] at hnode
  obtain ⟨found, hfound, rfl⟩ := hnode
  exact h _ (mem_flatten [] hfound)

end ClassDump.Node
