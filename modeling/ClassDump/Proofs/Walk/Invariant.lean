import ClassDump.Proofs.Walk.Listing

/-! What a walk keeps, and what can stop it. A property of the visitor's state that every visit, log record and handled
error keeps is kept by the whole walk, and the walk is stopped only by what a visit raises and no handler takes. Visits
may rely on what the listings say about the entries that they are for. -/

namespace ClassDump.Walk

variable {σ ε : Type}

/-- All that a walk asks of a visitor keeps a property of its state, for the entries and directories that the listings
lead to, and what a visit raises is either taken by the handler or allowed to stop the walk. -/
structure Guided (visitor : Visitor σ ε) (inv : σ → Prop) (leaf : Path → Prop) (branch : Place → σ → Prop)
    (allowed : Raised ε → Prop) : Prop where
  handed : ∀ place state listed, inv state → branch place state →
    (visitor.world state).list place.text place.path = .ok listed →
      ∀ entry ∈ listed, entry.isDir = false → leaf (place.path.child entry.name)
  entered : ∀ place state listed, inv state → branch place state →
    (visitor.world state).list place.text place.path = .ok listed →
      ∀ entry ∈ listed, entry.isDir = true → ∀ later, inv later →
        (!visitor.followLinks && (visitor.world later).isLink (place.path.child entry.name)) = false →
          branch (place.child entry.name) later
  visit : ∀ path state, leaf path → inv state → inv (visitor.visit path state).2
  raise : ∀ path state raised, leaf path → inv state → (visitor.visit path state).1 = .error raised →
    allowed raised ∨ (visitor.onError.isSome ∧ ∃ error, raised = .os error)
  log : ∀ message state, inv state → inv (visitor.log message state)
  onError : ∀ handle, visitor.onError = some handle →
    ∀ path error state, inv state → inv (handle path error state)

/-- The end of a part of a walk: the property holds, and only something allowed has stopped the walk. -/
def Sound (inv : σ → Prop) (allowed : Raised ε → Prop) (result : Flow ε × State σ) : Prop :=
  inv result.2.inner ∧ ∀ raised, result.1 = .stopped raised → allowed raised

theorem sound_each {α : Type} {inv : σ → Prop} {allowed : Raised ε → Prop} {step : α → State σ → Flow ε × State σ}
    {items : List α} (hstep : ∀ item ∈ items, ∀ state, inv state.inner → Sound inv allowed (step item state))
    (state : State σ) (hstate : inv state.inner) : Sound inv allowed (each step items state) := by
  induction items generalizing state with
  | nil => exact ⟨hstate, nofun⟩
  | cons item rest ih =>
      have hitem := hstep item List.mem_cons_self state hstate
      rw [each]
      split
      · next next hnext =>
        rw [hnext] at hitem
        exact ih (fun other hother => hstep other (List.mem_cons_of_mem _ hother)) next hitem.1
      · exact hitem

namespace Guided

variable {visitor : Visitor σ ε} {inv : σ → Prop} {leaf : Path → Prop} {branch : Place → σ → Prop}
  {allowed : Raised ε → Prop}

theorem sound_hand (h : Guided visitor inv leaf branch allowed) (root : Path) {path : Path} (hpath : leaf path)
    (state : State σ) (hstate : inv state.inner) : Sound inv allowed (hand visitor root path state) := by
  have hvisit := h.visit path state.inner hpath hstate
  rcases hand_cases visitor root path state with
    ⟨-, heq⟩ | ⟨-, heq⟩ | ⟨error, handle, -, hhandle, heq⟩ | ⟨raised, hraised, hleft, heq⟩ <;> rw [heq]
  · exact ⟨hvisit, nofun⟩
  · exact ⟨h.log _ _ hvisit, nofun⟩
  · exact ⟨h.onError handle hhandle _ _ _ hvisit, nofun⟩
  · refine ⟨hvisit, ?_⟩
    rintro raised ⟨⟩
    refine (h.raise path state.inner raised hpath hstate hraised).resolve_right ?_
    rintro ⟨hsome, error, hos⟩
    exact hleft hsome error hos

theorem inv_listingFailed (h : Guided visitor inv leaf branch allowed) (path : Path) (error : OsError) (state : State σ)
    (hstate : inv state.inner) : inv (listingFailed visitor path error state).inner := by
  rw [listingFailed]
  split
  · next handle hhandle => exact h.onError handle hhandle _ _ _ hstate
  · exact h.log _ _ hstate

/-- A directory is walked soundly if the directories listed in it are. -/
theorem sound_enter_of_enterAll (h : Guided visitor inv leaf branch allowed) (root : Path) {levels : Nat}
    {place : Place}
    (state : State σ) (hplace : branch place state.inner) (hstate : inv state.inner)
    (hall : ∀ listed, (visitor.world state.inner).list place.text place.path = .ok listed →
      ∀ next, inv next.inner → Sound inv allowed (enterAll visitor root levels place listed next)) :
    Sound inv allowed (enter visitor root levels place state) := by
  cases hlist : (visitor.world state.inner).list place.text place.path with
  | error error =>
      rw [enter_of_error hlist]
      exact ⟨h.inv_listingFailed _ _ _ hstate, nofun⟩
  | ok listed =>
      have hfiles : Sound inv allowed (each (fun name => hand visitor root (place.path.child name))
          (namesWhere (!·.isDir) listed) state) := by
        refine sound_each (fun name hname => ?_) state hstate
        obtain ⟨entry, hentry, hisDir, rfl⟩ := mem_namesWhere_iff.mp hname
        exact h.sound_hand root (h.handed place state.inner listed hstate hplace hlist entry hentry
          (by simpa using hisDir))
      cases heach : each (fun name => hand visitor root (place.path.child name))
        (namesWhere (!·.isDir) listed) state with
      | mk flow next =>
          rw [heach] at hfiles
          by_cases hflow : flow = .onward
          · subst hflow
            rw [enter_of_onward hlist heach]
            exact hall listed hlist next hfiles.1
          · rw [enter_of_not_onward hlist heach hflow]
            exact hfiles

theorem sound_enter (h : Guided visitor inv leaf branch allowed) (root : Path) (levels : Nat) {place : Place}
    (state : State σ) (hplace : branch place state.inner) (hstate : inv state.inner) :
    Sound inv allowed (enter visitor root levels place state) := by
  induction levels generalizing place state with
  | zero =>
      refine h.sound_enter_of_enterAll root state hplace hstate fun listed _ next hnext => ?_
      rw [enterAll]
      exact ⟨hnext, nofun⟩
  | succ below ih =>
      refine h.sound_enter_of_enterAll root state hplace hstate fun listed hlist next hnext => ?_
      refine sound_each (fun name hname later hlater => ?_) next hnext
      obtain ⟨entry, hentry, hisDir, rfl⟩ := mem_namesWhere_iff.mp hname
      split
      · exact ⟨hlater, nofun⟩
      · next hlink =>
        have hbranch := h.entered place state.inner listed hstate hplace hlist entry hentry hisDir later.inner hlater
          (by simpa using hlink)
        exact ih later hbranch hlater

/-- A walk keeps what its visitor keeps. -/
theorem inv_run (h : Guided visitor inv leaf branch allowed) (root : Path) (inner : σ)
    (hroot : branch (.ofPath root) inner) (hinner : inv inner) : inv (run visitor root inner).2 := by
  cases hnul : root.hasNul with
  | true => rwa [run_of_hasNul hnul]
  | false =>
      rw [run_eq_conclusion hnul, inner_conclusion]
      exact (h.sound_enter root pathMax ⟨inner, 0⟩ hroot hinner).1

/-- What stops a walk from a root that can be asked about is something that the visitor is allowed to raise. -/
theorem allowed_of_run (h : Guided visitor inv leaf branch allowed) {root : Path} (hnul : root.hasNul = false)
    {inner : σ} (hroot : branch (.ofPath root) inner) (hinner : inv inner) {raised : Raised ε}
    (hrun : (run visitor root inner).1 = .error raised) : allowed raised := by
  rw [run_eq_conclusion hnul, conclusion_eq_error_iff] at hrun
  exact (h.sound_enter root pathMax ⟨inner, 0⟩ hroot hinner).2 raised hrun

end Guided

/-- All that a walk asks of a visitor keeps a property of its state, whatever path it is asked about, and what a visit
raises is either taken by the handler or allowed to stop the walk. -/
structure Keeps (visitor : Visitor σ ε) (inv : σ → Prop) (allowed : Raised ε → Prop) : Prop where
  visit : ∀ path state, inv state → inv (visitor.visit path state).2
  raise : ∀ path state raised, inv state → (visitor.visit path state).1 = .error raised →
    allowed raised ∨ (visitor.onError.isSome ∧ ∃ error, raised = .os error)
  log : ∀ message state, inv state → inv (visitor.log message state)
  onError : ∀ handle, visitor.onError = some handle →
    ∀ path error state, inv state → inv (handle path error state)

theorem Keeps.guided {visitor : Visitor σ ε} {inv : σ → Prop} {allowed : Raised ε → Prop}
    (h : Keeps visitor inv allowed) : Guided visitor inv (fun _ => True) (fun _ _ => True) allowed where
  handed _ _ _ _ _ _ _ _ _ := trivial
  entered _ _ _ _ _ _ _ _ _ _ _ _ := trivial
  visit path state _ := h.visit path state
  raise path state raised _ := h.raise path state raised
  log := h.log
  onError := h.onError

end ClassDump.Walk
