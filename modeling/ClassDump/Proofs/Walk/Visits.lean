import ClassDump.Proofs.Store.SameFiles
import ClassDump.Proofs.Walk.Account

/-! What a walk that does not follow links hands over, if its visitor changes nothing and always goes on: everything
below its root that is no directory and that leads to none, unless a directory on the way is a link or cannot be listed.
It does so in pre-order and once each, whatever the order in which directories list their entries. -/

namespace ClassDump.Walk

variable {world other : World} {root : Path} {relative : Location}

/-- Something other than a directory stands at the location, in a directory of the tree that the root leads to. It is no
link to a directory, and every directory above it can be listed. -/
def IsVisited (world : World) (root : Path) (relative : Location) : Prop :=
  ∃ there node, world.IsDirAt root there ∧ world.root.bare? (there ++ relative) = some node ∧ node.isDir = false ∧
    world.isDir (root.descend relative) ≠ .ok true ∧ Visible (Unlisted world root) relative

/-- All that is to be handed over, in pre-order: what is in a directory by ascending names, and then what is in its
directories. -/
structure IsVisitOrder (world : World) (root : Path) (order : List Location) : Prop where
  pairwise : order.Pairwise Precedes
  mem_iff : ∀ relative, relative ∈ order ↔ IsVisited world root relative

theorem IsVisitOrder.unique {order another : List Location} (h : IsVisitOrder world root order)
    (hanother : IsVisitOrder world root another) : order = another :=
  Precedes.eq_of_pairwise h.pairwise hanother.pairwise fun relative =>
    (h.mem_iff relative).trans (hanother.mem_iff relative).symm

/-- The entries of the itinerary are what is to be handed over. -/
theorem isVisitOrder_itinerary (hlegal : world.Legal) (hnul : root.hasNul = false) :
    IsVisitOrder world root (entriesOf (itinerary world false root pathMax [])) where
  pairwise := pairwise_itinerary world false root pathMax []
  mem_iff relative := by
    rw [mem_entriesOf_iff hlegal hnul]
    constructor
    · rintro ⟨⟨there, hthere, hvisible, node, hnode, hbare⟩, hnot⟩
      exact ⟨there, node, hthere, hbare, hnode, hnot, hvisible⟩
    · rintro ⟨there, node, hthere, hbare, hnode, hnot, hvisible⟩
      exact ⟨⟨there, hthere, hvisible, node, hnode, hbare⟩, hnot⟩

section SameFiles

variable (h : world.SameFiles other)
include h

theorem unlisted_of_sameFiles (hunlisted : Unlisted world root relative) : Unlisted other root relative := by
  obtain ⟨error, herror⟩ := hunlisted
  cases hlist : other.list ((Place.ofPath root).descend relative).text (root.descend relative) with
  | error failure => exact ⟨failure, hlist⟩
  | ok listed =>
      obtain ⟨shown, hshown⟩ := h.symm.exists_list_of_list hlist
      rw [herror] at hshown
      cases hshown

theorem isVisited_of_sameFiles (hvisited : IsVisited world root relative) : IsVisited other root relative := by
  obtain ⟨there, node, hthere, hbare, hnode, hnot, hvisible⟩ := hvisited
  rw [h.tree] at hbare
  rw [h.isDir_eq] at hnot
  exact ⟨there, node, (h.isDirAt_iff root there).mp hthere, hbare, hnode, hnot,
    fun above habove hne hunlisted => hvisible above habove hne (unlisted_of_sameFiles h.symm hunlisted)⟩

/-- The order in which directories list their entries makes no difference. -/
theorem IsVisitOrder.of_sameFiles {order : List Location} (horder : IsVisitOrder world root order) :
    IsVisitOrder other root order where
  pairwise := horder.pairwise
  mem_iff relative := (horder.mem_iff relative).trans
    ⟨isVisited_of_sameFiles h, isVisited_of_sameFiles h.symm⟩

end SameFiles

variable {σ ε : Type}

theorem filterMap_handedOf (root : Path) (encounters : List Encounter) :
    encounters.filterMap (handedOf root) = (entriesOf encounters).map root.descend := by
  rw [entriesOf, List.map_filterMap]
  refine List.filterMap_congr fun encounter _ => ?_
  cases encounter <;> rfl

/-- A walk that does not follow links, with a visitor that changes nothing and always goes on, hands over exactly what is
to be handed over, in pre-order, and it counts this; the order of the listings makes no difference. And no walk, whatever
its visitor does to the files, hands a path over twice. -/
theorem visits_exact :
    (∀ (visitor : Visitor σ ε) (world : World) (inv : σ → Prop) (root : Path) (inner : σ),
      world.Legal → root.hasNul = false → visitor.followLinks = false →
        Scripted visitor world inv (fun _ => .ok .proceed) → inv inner →
          ∃ order, (∀ other, world.SameFiles other → IsVisitOrder other root order) ∧
            (run visitor root inner).1 = .ok order.length ∧
            (run visitor.recorded root (inner, {})).2.2.handed = order.map root.descend) ∧
    ∀ (visitor : Visitor σ ε) (root : Path) (inner : σ),
      (run visitor.recorded root (inner, {})).2.2.handed.Nodup := by
  refine ⟨fun visitor world inv root inner hlegal hnul hlinks h hinner => ?_, nodup_handed⟩
  have hgoes : ∀ encounter ∈ itinerary world visitor.followLinks root pathMax [],
      endOf visitor.onError.isSome (fun _ => .ok .proceed : Path → Except (Raised ε) VisitAction) root encounter =
        none := by
    rintro encounter -
    cases encounter <;> rfl
  obtain ⟨houtcome, hrecord⟩ := h.run_recorded_eq hnul hinner (Account.foldl_after_of_forall hgoes)
  have hhanded := filterMap_handedOf root (itinerary world visitor.followLinks root pathMax [])
  rw [hlinks] at houtcome hrecord hhanded
  refine ⟨entriesOf (itinerary world false root pathMax []), fun other hother =>
    (isVisitOrder_itinerary hlegal hnul).of_sameFiles hother, ?_, ?_⟩
  · rw [← (run_recorded visitor root inner).1, houtcome]
    simp only [Account.outcome, Account.upTo, hhanded, List.length_map]
  · rw [hrecord]
    exact hhanded

/-- A link to a directory, in which a link leads nowhere and another one back to the directory. -/
def withLinkedRoot : World where
  root := .dir
    [("link", .link "tree"),
      ("tree", .dir [("sub", .dir [("b", .file []), ("up", .link "..")]), ("a", .link "nowhere")])]
  workingDir := ⟨[], []⟩
  home := "/"

/-- The link that leads nowhere is handed over, before what is further down; the link to the directory is not. -/
theorem visits_exact_withLinkedRoot :
    let link : Path := ⟨.root, ["link"]⟩
    let visitor : Visitor World Empty := scripted (fun _ => .ok .proceed) false false
    (run visitor link withLinkedRoot).1 = .ok 2 ∧
      (run visitor.recorded link (withLinkedRoot, {})).2.2.handed = [link.descend ["a"], link.descend ["sub", "b"]] := by
  intro link visitor
  have hlegal : withLinkedRoot.Legal := ⟨Node.legal_of_flatten (by decide +kernel), rfl⟩
  have hentries : entriesOf (itinerary withLinkedRoot false link pathMax []) = [["a"], ["sub", "b"]] := by
    decide +kernel
  obtain ⟨order, horder, hcount, hhanded⟩ := visits_exact.1 visitor withLinkedRoot _ link withLinkedRoot hlegal
    (by decide) rfl (scripted_scripted _ false false withLinkedRoot) rfl
  have hsame := (horder withLinkedRoot ⟨rfl, rfl, rfl⟩).unique (isVisitOrder_itinerary hlegal (by decide))
  rw [hsame, hentries] at hcount hhanded
  exact ⟨hcount, hhanded⟩

end ClassDump.Walk
