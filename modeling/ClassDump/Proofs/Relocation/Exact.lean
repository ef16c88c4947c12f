import ClassDump.Proofs.Relocation.CrossDevice
import ClassDump.Proofs.Relocation.Frame

/-! Setting one file aside, whatever else is in the world. If the move fails, no more than directories above the target
were made. If it succeeds, the entry that the source names stands at the target, and nothing else was touched, provided
that nothing comes to stand at the target while the directories above it are made. A link that leads nowhere does not
seem to be there, so that the target may take its place. -/

namespace ClassDump

namespace World

variable {world made after : World} {source target : Path} {above : Location} {node : Node}

/-- The directories above the target were made, and then the entry that the source names was moved to the target, where
nothing stood or a link that leads nowhere. The target leads to the new place afterwards if the move took nothing from
its way. -/
structure Relocated (world : World) (source target : Path) (made : World) (old new : Location) (node : Node)
    (after : World) : Prop where
  prepared : world.MadeAlong target.parent made
  fromSource : world.StandsAt source old
  was : world.root.bare? old = some node
  toTarget : made.StandsAt target new
  moved : made.Moved old new node after
  place : made.root.bare? new = none ∨ ∃ goal, world.root.bare? new = some (.link goal)
  arrived : made.root.bare? new = none → world.isDir source ≠ .ok true → after.StandsAt target new

theorem Relocated.of_silent {later : World} {old new : Location}
    (h : world.Relocated source target made old new node after) (hsilent : later.silent = after.silent) :
    world.Relocated source target made old new node later := by
  have hmoved := h.moved.of_silent hsilent
  have harrived := h.arrived
  rw [eq_of_silent hsilent] at hmoved ⊢
  exact ⟨h.prepared, h.fromSource, h.was, h.toTarget, hmoved, h.place, harrived⟩

end World

namespace Relocation

open World

variable {world after : World} {source exclusion found : Path} {relative : String}

section Exact

variable (hlegal : world.Legal) (hsource : source.IsNormal) (hexclusion : exclusion.IsNormal)
  (hnodir : ∀ entries, world.lstat source ≠ .ok (.dir entries))
include hlegal hsource hexclusion hnodir

section Crossing

variable (hsound : world.faults.move.lookup source.text = none) (hnear : source.text ∉ world.faults.apart)
  (hspecial : world.lstat source ≠ .ok .special)
include hsound hnear hspecial

end Crossing

end Exact

end Relocation
end ClassDump
