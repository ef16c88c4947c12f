import ClassDump.Proofs.Walk.Agenda
import ClassDump.Proofs.Walk.Alike
import ClassDump.Proofs.Walk.Invariant

/-! A visitor that takes notes. It walks as the visitor itself, and what it notes is added with each visit and with each
call of its error handler. So what is known of every visit holds of all that was handed over; and no path is noted twice
for the handler: each call is for an entry or a directory of its own. -/

namespace ClassDump

variable {σ τ ε : Type}

/-- The visitor that also takes notes, on every path handed to it and on every call of its error handler. -/
def Visitor.noting (visitor : Visitor σ ε) (seen : Path → σ → τ → τ) (called : Path → OsError → τ → τ) :
    Visitor (σ × τ) ε where
  world state := visitor.world state.1
  log message state := (visitor.log message state.1, state.2)
  visit path state := ((visitor.visit path state.1).1, (visitor.visit path state.1).2, seen path state.1 state.2)
  onError := visitor.onError.map fun handle path error state => (handle path error state.1, called path error state.2)
  followLinks := visitor.followLinks

namespace Walk

variable (visitor : Visitor σ ε) (seen : Path → σ → τ → τ) (called : Path → OsError → τ → τ)

theorem alike_noting : Alike (visitor.noting seen called) visitor fun state copy => state.1 = copy where
  list _ _ hrel := congrArg (fun inner => (visitor.world inner).list) hrel
  isLink _ _ hrel := congrArg (fun inner => (visitor.world inner).isLink) hrel
  followLinks := rfl
  visit path _ _ hrel :=
    ⟨congrArg (fun inner => (visitor.visit path inner).1) hrel,
      congrArg (fun inner => (visitor.visit path inner).2) hrel⟩
  log message _ _ hrel := congrArg (visitor.log message) hrel
  onError := by
    change Option.Rel _ (visitor.onError.map _) _
    cases visitor.onError with
    | none => exact .none
    | some handle => exact .some fun path error _ _ hrel => congrArg (handle path error) hrel

/-- The walk with notes is the walk of the visitor itself. -/
theorem run_noting (root : Path) (inner : σ) (notes : τ) :
    (run (visitor.noting seen called) root (inner, notes)).1 = (run visitor root inner).1 ∧
      (run (visitor.noting seen called) root (inner, notes)).2.1 = (run visitor root inner).2 :=
  (alike_noting visitor seen called).run_eq root rfl

/-- A path that is handed over is noted, and then the call of the handler if there is one. -/
theorem notes_hand (root path : Path) (state : State (σ × τ)) :
    (hand (visitor.noting seen called) root path state).2.inner.2 = seen path state.inner.1 state.inner.2 ∨
      ∃ error, (hand (visitor.noting seen called) root path state).2.inner.2 =
        called path error (seen path state.inner.1 state.inner.2) := by
  rcases hand_cases (visitor.noting seen called) root path state with
    ⟨-, heq⟩ | ⟨-, heq⟩ | ⟨error, handle, -, hhandle, heq⟩ | ⟨raised, -, -, heq⟩ <;> rw [heq]
  · exact .inl rfl
  · exact .inl rfl
  · obtain ⟨own, -, rfl⟩ := Option.map_eq_some_iff.mp hhandle
    exact .inr ⟨error, rfl⟩
  · exact .inl rfl

theorem notes_listingFailed (path : Path) (error : OsError) (state : State (σ × τ)) :
    (listingFailed (visitor.noting seen called) path error state).inner.2 = state.inner.2 ∨
      (listingFailed (visitor.noting seen called) path error state).inner.2 = called path error state.inner.2 := by
  unfold listingFailed
  simp only [Visitor.noting]
  cases visitor.onError with
  | none => exact .inl rfl
  | some handle => exact .inr rfl

end Walk

/-- The visitor that notes the path of every call of its error handler, the last one first. -/
def Visitor.traced (visitor : Visitor σ ε) : Visitor (σ × List Path) ε :=
  visitor.noting (fun _ _ calls => calls) fun path _ calls => path :: calls

/-- The visitor that notes every path handed to it with the state that it finds, the last one first. -/
def Visitor.watched (visitor : Visitor σ ε) : Visitor (σ × List (Path × σ)) ε :=
  visitor.noting (fun path state seen => (path, state) :: seen) fun _ _ seen => seen

namespace Walk

section Calls

variable (visitor : Visitor σ ε) (root : Path) (inner : σ)

theorem run_traced :
    (run visitor.traced root (inner, [])).1 = (run visitor root inner).1 ∧
      (run visitor.traced root (inner, [])).2.1 = (run visitor root inner).2 :=
  run_noting visitor _ _ root inner []

/-- No two calls of the error handler in a walk are for the same entry or directory, and each is for one of the tree. -/
theorem nodup_calls :
    (run visitor.traced root (inner, [])).2.2.Nodup ∧
      ∀ path ∈ (run visitor.traced root (inner, [])).2.2, ∃ names, path = root.descend names := by
  obtain ⟨honce, hbelow⟩ := @nodup_noted _ _ visitor.traced root (fun state => state.2.reverse)
    (fun path state => by
      rcases notes_hand visitor _ (fun path _ calls => path :: calls) root path state with hsame | ⟨error, hone⟩
      · exact .inl (congrArg List.reverse hsame)
      · exact .inr ((congrArg List.reverse hone).trans List.reverse_cons))
    (fun path error state => by
      rcases notes_listingFailed visitor (fun _ _ calls => calls) _ path error state with hsame | hone
      · exact .inl (congrArg List.reverse hsame)
      · exact .inr ((congrArg List.reverse hone).trans List.reverse_cons))
    (inner, []) rfl
  exact ⟨List.nodup_reverse.mp honce, fun path hpath => hbelow path (List.mem_reverse.mpr hpath)⟩

end Calls

theorem run_watched (visitor : Visitor σ ε) (root : Path) (inner : σ) :
    (run visitor.watched root (inner, [])).1 = (run visitor root inner).1 ∧
      (run visitor.watched root (inner, [])).2.1 = (run visitor root inner).2 :=
  run_noting visitor _ _ root inner []

namespace Guided

variable {visitor : Visitor σ ε} {leaf : Path → Prop} {branch : Place → σ → Prop} {allowed : Raised ε → Prop}

theorem of_traced {inv : σ × List Path → Prop} (branch : Place → σ → Prop)
    (h : Guided visitor.traced inv leaf (fun place state => branch place state.1) allowed) :
    Guided visitor (fun inner => ∃ calls, inv (inner, calls)) leaf branch allowed where
  handed place inner listed hinner := by
    obtain ⟨calls, hcalls⟩ := hinner
    exact h.handed place (inner, calls) listed hcalls
  entered place inner listed hinner hplace hlist entry hentry hisDir later hlater := by
    obtain ⟨calls, hcalls⟩ := hinner
    obtain ⟨others, hothers⟩ := hlater
    exact h.entered place (inner, calls) listed hcalls hplace hlist entry hentry hisDir (later, others) hothers
  visit path inner hleaf hinner := by
    obtain ⟨calls, hcalls⟩ := hinner
    exact ⟨calls, h.visit path (inner, calls) hleaf hcalls⟩
  raise path inner raised hleaf hinner hraised := by
    obtain ⟨calls, hcalls⟩ := hinner
    have hraise := h.raise path (inner, calls) raised hleaf hcalls hraised
    rwa [Visitor.traced, Visitor.noting, Option.isSome_map] at hraise
  log message inner hinner := by
    obtain ⟨calls, hcalls⟩ := hinner
    exact ⟨calls, h.log message (inner, calls) hcalls⟩
  onError handle hhandle path error inner hinner := by
    obtain ⟨calls, hcalls⟩ := hinner
    have htraced : visitor.traced.onError =
        some fun path error state => (handle path error state.1, path :: state.2) := by
      rw [Visitor.traced, Visitor.noting, hhandle, Option.map_some]
    exact ⟨path :: calls, h.onError _ htraced path error (inner, calls) hcalls⟩

/-- All that was handed over was handed over for good reason, and in a state that the walk keeps. -/
theorem watched {inv : σ → Prop} (h : Guided visitor inv leaf branch allowed) :
    Guided visitor.watched (fun state => inv state.1 ∧ ∀ seen ∈ state.2, leaf seen.1 ∧ inv seen.2) leaf
      (fun place state => branch place state.1) allowed where
  handed place state listed hstate := h.handed place state.1 listed hstate.1
  entered place state listed hstate hplace hlist entry hentry hisDir later hlater :=
    h.entered place state.1 listed hstate.1 hplace hlist entry hentry hisDir later.1 hlater.1
  visit path state hleaf hstate := by
    refine ⟨h.visit path state.1 hleaf hstate.1, fun seen hseen => ?_⟩
    rcases List.mem_cons.mp hseen with rfl | hseen
    · exact ⟨hleaf, hstate.1⟩
    · exact hstate.2 seen hseen
  raise path state raised hleaf hstate hraised := by
    have hraise := h.raise path state.1 raised hleaf hstate.1 hraised
    rwa [Visitor.watched, Visitor.noting, Option.isSome_map]
  log message state hstate := ⟨h.log message state.1 hstate.1, hstate.2⟩
  onError handle hhandle path error state hstate := by
    obtain ⟨inner, hinner, rfl⟩ := Option.map_eq_some_iff.mp hhandle
    exact ⟨h.onError inner hinner path error state.1 hstate.1, hstate.2⟩

end Guided

end Walk
end ClassDump
