import ClassDump.Proofs.Walk.Listing

/-! Two walks side by side. Where two visitors see the same listings and the same links and answer every visit alike,
their walks are the same, and whatever relates their states at the start still does at the end. -/

namespace ClassDump.Walk

variable {σ τ ε : Type}

/-- From related states the visitors see the same, answer alike and get into related states. -/
structure Alike (visitor : Visitor σ ε) (other : Visitor τ ε) (rel : σ → τ → Prop) : Prop where
  list : ∀ state copy, rel state copy → (visitor.world state).list = (other.world copy).list
  isLink : ∀ state copy, rel state copy → (visitor.world state).isLink = (other.world copy).isLink
  followLinks : visitor.followLinks = other.followLinks
  visit : ∀ path state copy, rel state copy →
    (visitor.visit path state).1 = (other.visit path copy).1 ∧
      rel (visitor.visit path state).2 (other.visit path copy).2
  log : ∀ message state copy, rel state copy → rel (visitor.log message state) (other.log message copy)
  onError : Option.Rel (fun handle copied => ∀ path error state copy, rel state copy →
    rel (handle path error state) (copied path error copy)) visitor.onError other.onError

/-- The parts of two walks ended alike, after as many visits and in related states. -/
def Matched (rel : σ → τ → Prop) (result : Flow ε × State σ) (copy : Flow ε × State τ) : Prop :=
  result.1 = copy.1 ∧ result.2.visited = copy.2.visited ∧ rel result.2.inner copy.2.inner

theorem Matched.exists_eq {rel : σ → τ → Prop} {result : Flow ε × State σ} {copy : Flow ε × State τ}
    (h : Matched rel result copy) :
    ∃ flow state copied, result = (flow, state) ∧ copy = (flow, copied) ∧ state.visited = copied.visited ∧
      rel state.inner copied.inner :=
  ⟨result.1, result.2, copy.2, rfl, Prod.ext h.1.symm rfl, h.2⟩

theorem matched_each {α : Type} {rel : σ → τ → Prop} {step : α → State σ → Flow ε × State σ}
    {other : α → State τ → Flow ε × State τ}
    (hstep : ∀ item state copy, state.visited = copy.visited → rel state.inner copy.inner →
      Matched rel (step item state) (other item copy)) (items : List α) {state : State σ} {copy : State τ}
    (hvisited : state.visited = copy.visited) (hrel : rel state.inner copy.inner) :
    Matched rel (each step items state) (each other items copy) := by
  induction items generalizing state copy with
  | nil => exact ⟨rfl, hvisited, hrel⟩
  | cons item rest ih =>
      obtain ⟨flow, next, copied, hnext, hcopied, hvisited', hrel'⟩ :=
        (hstep item state copy hvisited hrel).exists_eq
      rw [each, each, hnext, hcopied]
      cases flow with
      | onward => exact ih hvisited' hrel'
      | ended => exact ⟨rfl, hvisited', hrel'⟩
      | stopped raised => exact ⟨rfl, hvisited', hrel'⟩

namespace Alike

variable {visitor : Visitor σ ε} {other : Visitor τ ε} {rel : σ → τ → Prop} (h : Alike visitor other rel)
  {state : State σ} {copy : State τ} (hvisited : state.visited = copy.visited) (hrel : rel state.inner copy.inner)
include h hvisited hrel

omit hvisited hrel in
theorem onError_cases :
    (visitor.onError = none ∧ other.onError = none) ∨
      ∃ handle copied, visitor.onError = some handle ∧ other.onError = some copied ∧
        ∀ path error state copy, rel state copy → rel (handle path error state) (copied path error copy) := by
  have herror := h.onError
  cases hhandle : visitor.onError with
  | none =>
      cases hcopied : other.onError with
      | none => exact .inl ⟨rfl, rfl⟩
      | some copied =>
          rw [hhandle, hcopied] at herror
          cases herror
  | some handle =>
      cases hcopied : other.onError with
      | none =>
          rw [hhandle, hcopied] at herror
          cases herror
      | some copied =>
          rw [hhandle, hcopied] at herror
          cases herror with
          | some hboth => exact .inr ⟨handle, copied, rfl, rfl, hboth⟩

theorem matched_hand (root path : Path) : Matched rel (hand visitor root path state) (hand other root path copy) := by
  obtain ⟨hresult, hnext⟩ := h.visit path state.inner copy.inner hrel
  unfold hand
  dsimp only
  cases hvisit : visitor.visit path state.inner with
  | mk result inner =>
      cases hcopied : other.visit path copy.inner with
      | mk answer copied =>
          rw [hvisit, hcopied] at hresult hnext
          change result = answer at hresult
          subst hresult
          rw [hvisited]
          cases result with
          | ok action =>
              cases action with
              | proceed => exact ⟨rfl, rfl, hnext⟩
              | terminate => exact ⟨rfl, rfl, h.log _ _ _ hnext⟩
          | error raised =>
              cases raised with
              | os error =>
                  rcases h.onError_cases with ⟨hnone, hnone'⟩ | ⟨handle, copied, hsome, hsome', hboth⟩
                  · rw [hnone, hnone']
                    exact ⟨rfl, rfl, hnext⟩
                  · rw [hsome, hsome']
                    exact ⟨rfl, rfl, hboth _ _ _ _ hnext⟩
              | nul => exact ⟨rfl, rfl, hnext⟩
              | own error => exact ⟨rfl, rfl, hnext⟩

theorem matched_listingFailed (path : Path) (error : OsError) : Matched rel
    ((.onward, listingFailed visitor path error state) : Flow ε × State σ)
    (.onward, listingFailed other path error copy) := by
  unfold listingFailed
  rcases h.onError_cases with ⟨hnone, hnone'⟩ | ⟨handle, copied, hsome, hsome', hboth⟩
  · rw [hnone, hnone']
    exact ⟨rfl, hvisited, h.log _ _ _ hrel⟩
  · rw [hsome, hsome']
    exact ⟨rfl, hvisited, hboth _ _ _ _ hrel⟩

/-- A directory is walked alike if its directories are. -/
theorem matched_enter_of_enterAll {levels : Nat} {root : Path} {place : Place}
    (hall : ∀ listed next copied, next.visited = copied.visited → rel next.inner copied.inner →
      Matched rel (enterAll visitor root levels place listed next) (enterAll other root levels place listed copied)) :
    Matched rel (enter visitor root levels place state) (enter other root levels place copy) := by
  have hlists := congrFun (congrFun (h.list _ _ hrel) place.text) place.path
  cases hlist : (other.world copy.inner).list place.text place.path with
  | error error =>
      rw [enter_of_error hlist, enter_of_error (hlists.trans hlist)]
      exact h.matched_listingFailed hvisited hrel place.path error
  | ok listed =>
      have hfiles := matched_each
        (fun name _ _ hcount hrel' => h.matched_hand hcount hrel' root (place.path.child name))
        (namesWhere (!·.isDir) listed) hvisited hrel
      obtain ⟨flow, next, copied, hnext, hcopied, hvisited', hrel'⟩ := hfiles.exists_eq
      by_cases hflow : flow = .onward
      · subst hflow
        rw [enter_of_onward (hlists.trans hlist) hnext, enter_of_onward hlist hcopied]
        exact hall listed next copied hvisited' hrel'
      · rw [enter_of_not_onward (hlists.trans hlist) hnext hflow, enter_of_not_onward hlist hcopied hflow]
        exact ⟨rfl, hvisited', hrel'⟩

theorem matched_enter (root : Path) (levels : Nat) (place : Place) :
    Matched rel (enter visitor root levels place state) (enter other root levels place copy) := by
  induction levels generalizing place state copy with
  | zero => exact h.matched_enter_of_enterAll hvisited hrel fun _ _ _ hcount hrel' => ⟨rfl, hcount, hrel'⟩
  | succ below ih =>
      refine h.matched_enter_of_enterAll hvisited hrel fun listed next copied hcount hrel' => ?_
      refine matched_each (fun name later copied hcount hrel' => ?_) _ hcount hrel'
      rw [h.followLinks, h.isLink _ _ hrel']
      split
      · exact ⟨rfl, hcount, hrel'⟩
      · exact ih hcount hrel' (place.child name)

omit hvisited hrel in
/-- The walks of visitors that are alike end alike. -/
theorem run_eq (root : Path) {inner : σ} {copied : τ} (hrel : rel inner copied) :
    (run visitor root inner).1 = (run other root copied).1 ∧
      rel (run visitor root inner).2 (run other root copied).2 := by
  obtain ⟨flow, next, later, hnext, hlater, hvisited, hrel'⟩ :=
    (@matched_enter _ _ _ _ _ _ h ⟨inner, 0⟩ ⟨copied, 0⟩ rfl hrel root pathMax (.ofPath root)).exists_eq
  cases hnul : root.hasNul with
  | true =>
      rw [run_of_hasNul hnul, run_of_hasNul hnul]
      exact ⟨rfl, hrel⟩
  | false =>
      rw [run_eq_conclusion hnul, run_eq_conclusion hnul, hnext, hlater]
      cases flow with
      | onward => exact ⟨congrArg Except.ok hvisited, hrel'⟩
      | ended => exact ⟨congrArg Except.ok hvisited, hrel'⟩
      | stopped raised => exact ⟨rfl, hrel'⟩

end Alike

end ClassDump.Walk
