import ClassDump.Proofs.Store.Silent
import ClassDump.Proofs.Walk.Invariant

/-! The reports of a scan that tells its progress after every so many classes: one at each multiple of that number, and
one more at the end unless the last count is a multiple. A walk of which each step counts at most one class, and reports
it where that is due, has at any time reported the multiples up to its count. -/

namespace ClassDump

namespace Progress

def ofCount (stage : String) (count : Nat) : Progress :=
  ⟨stage, count, none⟩

/-- The reports at the multiples of a number up to a count. -/
def milestones (stage : String) (every count : Nat) : List Progress :=
  (List.range (count / every)).map fun index => ofCount stage ((index + 1) * every)

/-- The reports of a scan of so many classes: those at the multiples of a number, and one at the end if that is none. -/
def course (stage : String) (every total : Nat) : List Progress :=
  milestones stage every total ++ if every ∣ total then [] else [ofCount stage total]

variable {stage : String} {every : Nat}

@[simp] theorem milestones_zero : milestones stage every 0 = [] := by
  simp [milestones]

/-- One more class adds the report of the count, if that is a multiple. -/
theorem milestones_succ (count : Nat) : milestones stage every (count + 1) =
    milestones stage every count ++ if every ∣ count + 1 then [ofCount stage (count + 1)] else [] := by
  unfold milestones
  by_cases hdvd : every ∣ count + 1
  · have hquotient : (count + 1) / every = count / every + 1 := by rw [Nat.succ_div, if_pos hdvd]
    have hlast : (count / every + 1) * every = count + 1 := by rw [← hquotient, Nat.div_mul_cancel hdvd]
    rw [if_pos hdvd, hquotient, List.range_succ, List.map_append, List.map_singleton, hlast]
  · rw [if_neg hdvd, Nat.succ_div, if_neg hdvd, Nat.add_zero, List.append_nil]

theorem mem_milestones_iff (hevery : 0 < every) {total : Nat} {report : Progress} :
    report ∈ milestones stage every total ↔
      ∃ count, 0 < count ∧ count ≤ total ∧ every ∣ count ∧ report = ofCount stage count := by
  unfold milestones
  rw [List.mem_map]
  constructor
  · rintro ⟨index, hindex, rfl⟩
    have hle : (index + 1) * every ≤ total := (Nat.le_div_iff_mul_le hevery).mp (List.mem_range.mp hindex)
    exact ⟨_, Nat.mul_pos (Nat.succ_pos index) hevery, hle, Nat.dvd_mul_left every _, rfl⟩
  · rintro ⟨count, hpos, hle, ⟨quotient, rfl⟩, rfl⟩
    obtain ⟨index, rfl⟩ := Nat.exists_eq_succ_of_ne_zero (Nat.ne_of_gt (Nat.pos_of_mul_pos_left hpos))
    rw [Nat.mul_comm] at hle ⊢
    exact ⟨index, List.mem_range.mpr ((Nat.le_div_iff_mul_le hevery).mpr hle), rfl⟩

/-- Reported are the multiples and the final count, as far as anything was counted. -/
theorem mem_course_iff (hevery : 0 < every) {total : Nat} {report : Progress} :
    report ∈ course stage every total ↔
      ∃ count, 0 < count ∧ count ≤ total ∧ (every ∣ count ∨ count = total) ∧ report = ofCount stage count := by
  rw [course, List.mem_append, mem_milestones_iff hevery]
  constructor
  · rintro (⟨count, hpos, hle, hmultiple, rfl⟩ | hlast)
    · exact ⟨count, hpos, hle, .inl hmultiple, rfl⟩
    · split at hlast
      · cases hlast
      · next hrest =>
        obtain rfl := List.mem_singleton.mp hlast
        have hpos : 0 < total := Nat.pos_of_ne_zero fun hzero => hrest (hzero ▸ Nat.dvd_zero every)
        exact ⟨total, hpos, Nat.le_refl total, .inr rfl, rfl⟩
  · rintro ⟨count, hpos, hle, hmultiple | rfl, rfl⟩
    · exact .inl ⟨count, hpos, hle, hmultiple, rfl⟩
    · by_cases hmultiple : every ∣ count
      · exact .inl ⟨count, hpos, hle, hmultiple, rfl⟩
      · rw [if_neg hmultiple]
        exact .inr List.mem_cons_self

theorem pairwise_milestones (hevery : 0 < every) (count : Nat) :
    (milestones stage every count).Pairwise (·.current < ·.current) := by
  refine List.pairwise_map.mpr (List.pairwise_lt_range.imp fun hlt => ?_)
  exact Int.ofNat_lt.mpr (Nat.mul_lt_mul_of_pos_right (Nat.succ_lt_succ hlt) hevery)

/-- No count is reported twice, and the counts go up. -/
theorem pairwise_course (hevery : 0 < every) (total : Nat) :
    (course stage every total).Pairwise (·.current < ·.current) := by
  unfold course
  split
  · rw [List.append_nil]
    exact pairwise_milestones hevery total
  · next hdvd =>
    refine List.pairwise_append.mpr ⟨pairwise_milestones hevery total, List.pairwise_singleton _ _, ?_⟩
    intro report hreport last hlast
    obtain rfl := List.mem_singleton.mp hlast
    obtain ⟨count, -, hle, hmultiple, rfl⟩ := (mem_milestones_iff hevery).mp hreport
    exact Int.ofNat_lt.mpr (Nat.lt_of_le_of_ne hle fun hsame => hdvd (hsame ▸ hmultiple))

/-- If any class was counted, the last report is that of the final count. -/
theorem getLast?_course {total : Nat} (htotal : 0 < total) :
    (course stage every total).getLast? = some (ofCount stage total) := by
  unfold course
  split
  · next hdvd =>
    obtain ⟨before, rfl⟩ := Nat.exists_eq_succ_of_ne_zero (Nat.ne_of_gt htotal)
    rw [List.append_nil, Nat.succ_eq_add_one, milestones_succ, if_pos hdvd, List.getLast?_concat]
  · rw [List.getLast?_concat]

theorem due?_eq (hevery : 0 < every) (count : Nat) : due? (some every) count = some (decide (every ∣ count)) := by
  obtain ⟨below, rfl⟩ := Nat.exists_eq_succ_of_ne_zero (Nat.ne_of_gt hevery)
  simp only [due?, Nat.dvd_iff_mod_eq_zero]

theorem open?_eq (hevery : 0 < every) (count : Nat) : open? (some every) count = some (!decide (every ∣ count)) := by
  obtain ⟨below, rfl⟩ := Nat.exists_eq_succ_of_ne_zero (Nat.ne_of_gt hevery)
  simp only [open?, Nat.dvd_iff_mod_eq_zero, ne_eq, decide_not]

theorem exists_due? {interval : Option Nat} (h : interval ≠ some 0) (count : Nat) :
    ∃ due, due? interval count = some due := by
  match interval, h with
  | none, _ => exact ⟨_, rfl⟩
  | some (_ + 1), _ => exact ⟨_, rfl⟩

theorem exists_open? {interval : Option Nat} (h : interval ≠ some 0) (count : Nat) :
    ∃ isOpen, open? interval count = some isOpen := by
  match interval, h with
  | none, _ => exact ⟨_, rfl⟩
  | some (_ + 1), _ => exact ⟨_, rfl⟩

/-- One more class is counted, and the count is reported if it is a multiple. -/
def counted (stage : String) (every : Nat) (tally : Nat × List Progress) : Nat × List Progress :=
  (tally.1 + 1, tally.2 ++ if every ∣ tally.1 + 1 then [ofCount stage (tally.1 + 1)] else [])

/-- Since the start the multiples up to the count have been reported. -/
def OnCourse (stage : String) (every : Nat) (start : List Progress) (tally : Nat × List Progress) : Prop :=
  tally.2 = start ++ milestones stage every tally.1

theorem onCourse_start (start : List Progress) : OnCourse stage every start (0, start) := by
  rw [OnCourse, milestones_zero, List.append_nil]

theorem OnCourse.counted {start : List Progress} {tally : Nat × List Progress}
    (h : OnCourse stage every start tally) : OnCourse stage every start (counted stage every tally) := by
  change tally.2 = _ at h
  rw [OnCourse, Progress.counted, h, milestones_succ, List.append_assoc]

/-- With the report at the end, unless the last count is a multiple, the course is complete. -/
theorem OnCourse.complete {start reports : List Progress} {total : Nat}
    (h : OnCourse stage every start (total, reports)) :
    (if !decide (every ∣ total) then reports ++ [ofCount stage total] else reports) =
      start ++ course stage every total := by
  change reports = _ at h
  rw [course, ← List.append_assoc, ← h]
  by_cases hdvd : every ∣ total
  · simp [hdvd]
  · simp [hdvd]

end Progress

def Event.progress? : Event → Option Progress
  | .progress state => some state
  | _ => none

def World.progress (world : World) : List Progress :=
  world.events.toList.filterMap Event.progress?

namespace World

@[simp] theorem progress_report (world : World) (event : Event) :
    (world.report event).progress = world.progress ++ event.progress?.toList := by
  rw [progress, report, Array.toList_push, List.filterMap_append]
  cases event <;> rfl

@[simp] theorem progress_log (world : World) (level : Level) (source : Source) (message : String) :
    (world.log level source message).progress = world.progress := by
  rw [log, progress_report]
  exact List.append_nil _

theorem Logged.progress {world after : World} (h : world.Logged after) : after.progress = world.progress := by
  induction h with
  | refl => rfl
  | log _ level source message ih => exact (progress_log _ _ _ _).trans ih

end World

namespace Walk

variable {σ ε : Type} {visitor : Visitor σ ε} {tally : σ → Nat × List Progress} {stage : String} {every : Nat}

/-- A visitor that counts some of what it visits, one at a time, and reports the count at every multiple of a number. -/
structure Counts (visitor : Visitor σ ε) (tally : σ → Nat × List Progress) (stage : String) (every : Nat) : Prop where
  visit : ∀ path state, tally (visitor.visit path state).2 = tally state ∨
    tally (visitor.visit path state).2 = Progress.counted stage every (tally state)
  log : ∀ message state, tally (visitor.log message state) = tally state
  onError : ∀ handle, visitor.onError = some handle → ∀ path error state, tally (handle path error state) = tally state

theorem Counts.keeps (h : Counts visitor tally stage every) (start : List Progress) :
    Keeps visitor (fun state => Progress.OnCourse stage every start (tally state)) fun _ => True where
  visit path state hstate := by
    rcases h.visit path state with hsame | hcounted
    · rwa [hsame]
    · rw [hcounted]
      exact hstate.counted
  raise _ _ _ _ _ := .inl trivial
  log message state hstate := (h.log message state).symm ▸ hstate
  onError handle hhandle path error state hstate := (h.onError handle hhandle path error state).symm ▸ hstate

theorem Counts.onCourse_run (h : Counts visitor tally stage every) {start : List Progress} (root : Path) (inner : σ)
    (hinner : Progress.OnCourse stage every start (tally inner)) :
    Progress.OnCourse stage every start (tally (run visitor root inner).2) :=
  (h.keeps start).guided.inv_run root inner trivial hinner

end Walk
end ClassDump
