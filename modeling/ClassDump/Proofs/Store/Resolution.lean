import ClassDump.Proofs.Store.RealPath

/-! What a path resolves to. A path to a directory resolves to the location of the directory, and one to a free place in
a directory to that place. Only a relative path has no real one when the working directory was removed. -/

namespace ClassDump

namespace World

/-- Where the real path of a path is looked for first. -/
def realStart (path : Path) : Path :=
  if path.isAbsolute then ⟨.root, []⟩ else ⟨.here, []⟩

/-- The paths that the system is asked about for the real path of a path. -/
def asked (world : World) (path : Path) : List Path :=
  RealPath.askedNested world RealPath.nestingMax (realStart path) path.parts []

/-- The real path of the path is that of the location, or there is none because the working directory was removed. -/
def Resolves (world : World) (path : Path) (there : Location) : Prop :=
  world.resolve path = .ok ⟨.root, there⟩ ∨
    world.workingDir.removed ≠ [] ∧ world.resolve path = .error (.os (.refused .noEntry none none))

end World

variable {world : World} {n : Nat} {path : Path} {there above : Location} {name : String}

namespace RealPath

/-- A removed working directory is left by as many double dots as names were removed. -/
theorem arrives_ups {depth ups before : Nat} {written : List String}
    (h : Answered world depth written ⟨.here, List.replicate (before + ups) ".."⟩ [] →
      Arrives world depth written ⟨.here, List.replicate (before + ups) ".."⟩ [] there)
    (hanswered : Answered world depth (List.replicate ups ".." ++ written) ⟨.here, List.replicate before ".."⟩ []) :
    Arrives world depth (List.replicate ups ".." ++ written) ⟨.here, List.replicate before ".."⟩ [] there := by
  induction ups generalizing before with
  | zero => exact h hanswered
  | succ ups ih =>
      unfold Answered at hanswered
      rw [List.replicate_succ, List.cons_append, asked_up, up_replicate] at hanswered
      have hcount : before + (ups + 1) = before + 1 + ups := by omega
      rw [hcount] at h
      rw [List.replicate_succ, List.cons_append]
      exact (ih h hanswered).cons (fair_nil world 0).refl fun rest => by rw [pursue_up, up_replicate]

theorem arrives_of_leads (hlegal : world.Legal) (h : world.Leads n path there) (hn : n ≤ linkMax)
    (hshort : ∀ next ∈ world.asked path, next.byteLength < pathMax) :
    Arrives world (nestingMax - 1) path.parts (World.realStart path) [] there := by
  have hdepth : n ≤ nestingMax - 1 := Nat.le_trans hn (by decide)
  have hanswered : Answered world (nestingMax - 1) path.parts (World.realStart path) [] := hshort
  obtain ⟨rest, hparts, hreach⟩ := h
  unfold World.realStart at hanswered ⊢
  unfold World.start at hparts hreach
  cases habsolute : path.isAbsolute with
  | true =>
      rw [habsolute] at hparts hreach hanswered
      simp only [if_true, List.length_nil, List.replicate_zero, List.nil_append] at hparts hreach hanswered ⊢
      rw [hparts] at hanswered ⊢
      exact arrives_of_reach hlegal hdepth hreach rfl (.root List.not_mem_nil) (fair_nil world n) hanswered
  | false =>
      rw [habsolute] at hparts hreach hanswered
      simp only [Bool.false_eq_true, if_false] at hparts hreach hanswered ⊢
      rw [hparts] at hanswered ⊢
      refine @arrives_ups _ _ _ _ 0 _ (fun hanswers => ?_) hanswered
      rw [Nat.zero_add] at hanswers ⊢
      have hstraight : world.Straight ⟨.here, List.replicate world.workingDir.removed.length ".."⟩
          world.workingDir.location := by
        have hups := @World.Straight.here world _ [] (Nat.le_refl _) List.not_mem_nil
        rwa [Nat.sub_self, List.append_nil, List.append_nil] at hups
      exact arrives_of_reach hlegal hdepth hreach rfl hstraight (fair_nil world n) hanswers

end RealPath

namespace World

/-- A path resolves to the location that its pursuit ends at, unless the system finds a circle of links there. -/
theorem resolves_of_pursued (hlegal : world.Legal) (hnul : path.hasNul = false) {real : Path}
    (hpursue : (RealPath.pursueNested world RealPath.nestingMax (realStart path) path.parts []).path = real)
    (hreal : world.Straight real there) (hstat : world.stat ⟨.root, there⟩ ≠ .error .tooManyLinks) :
    world.Resolves path there := by
  unfold realStart at hpursue
  unfold Resolves resolve
  simp only [hnul, Bool.false_eq_true, if_false, hpursue]
  rcases hreal.absolute hlegal with habsolute | ⟨hremoved, habsolute⟩
  · refine .inl ?_
    simp only [habsolute]
    cases hfound : world.stat ⟨.root, there⟩ with
    | ok node => rfl
    | error errno =>
        refine if_neg ?_
        rintro rfl
        exact hstat hfound
  · refine .inr ⟨hremoved, ?_⟩
    simp only [habsolute]

theorem leads_root (hlegal : world.Legal) (hdir : world.root.HasDir there) : world.Leads 0 ⟨.root, there⟩ there :=
  (Straight.root fun hmem => (hlegal.root _ _ hdir ".." hmem).isName.2.1 rfl).leads hlegal hdir

/-- A path that leads to a directory resolves to its location. -/
theorem Leads.resolves (hlegal : world.Legal) (h : world.Leads n path there) (hn : n ≤ linkMax)
    (hdir : world.root.HasDir there) (hnul : path.hasNul = false)
    (hshort : ∀ next ∈ world.asked path, next.byteLength < pathMax) : world.Resolves path there := by
  obtain ⟨real, later, hpursue, hreal, -⟩ := RealPath.arrives_of_leads hlegal h hn hshort
  refine resolves_of_pursued hlegal hnul ?_ hreal ?_
  · have hend := hpursue []
    rw [List.append_nil] at hend
    exact congrArg RealPath.Outcome.path hend
  · rw [(leads_root hlegal hdir).stat, if_pos (Nat.zero_le _)]
    obtain ⟨entries, hentries⟩ := Node.hasDir_iff.mp hdir
    rw [hentries]
    split <;> simp [Errno.nameTooLong, Errno.tooManyLinks]

/-- A free place in a directory is none of its entries. -/
theorem exists_entries_of_free (hdir : world.root.HasDir above) (hfree : world.root.bare? (above ++ [name]) = none) :
    ∃ entries, world.root.get? above = some (.dir entries) ∧ entries.lookup name = none := by
  obtain ⟨entries, hentries⟩ := Node.hasDir_iff.mp hdir
  exact ⟨entries, hentries, (Node.get?_child hentries name).symm.trans (Node.bare?_eq_none_iff.mp hfree)⟩

/-- Nothing is found at a free place, and no link is met on the way down to it. -/
theorem stat_root_of_free (hlegal : world.Legal) (hdir : world.root.HasDir above) (hdot : name ≠ ".") (hup : name ≠ "..")
    (hfree : world.root.bare? (above ++ [name]) = none) :
    world.stat ⟨.root, above ++ [name]⟩ ≠ .error .tooManyLinks := by
  obtain ⟨entries, hentries, hlookup⟩ := exists_entries_of_free hdir hfree
  have hlocate : ∃ errno, world.locateFrom linkMax ⟨.root, above ++ [name]⟩ = .error errno ∧ errno ≠ .tooManyLinks := by
    by_cases hlength : pathMax ≤ (Path.descend ⟨.root, above⟩ [name]).byteLength
    · exact ⟨.nameTooLong, if_pos hlength, by decide⟩
    · have hdown := (leads_root hlegal hdir).locateFrom_descend (Nat.not_le.mp hlength) linkMax
      rw [if_pos (Nat.zero_le _), Node.locate_eq, Node.follow, hentries] at hdown
      simp only [if_neg hdot, if_neg hup] at hdown
      by_cases hlong : nameMax < name.utf8ByteSize
      · rw [if_pos hlong] at hdown
        exact ⟨.nameTooLong, hdown, by decide⟩
      · rw [if_neg hlong, hlookup] at hdown
        exact ⟨.noEntry, hdown, by decide⟩
  obtain ⟨errno, herror, hother⟩ := hlocate
  rw [stat_of_locateFrom_error herror]
  rintro ⟨⟩
  exact hother rfl

/-- A free place in a directory to which a straight path goes has no link. -/
theorem Straight.lstat_ne_link (hlegal : world.Legal) (h : world.Straight path above) (hdir : world.root.HasDir above)
    (hempty : name ≠ "") (hup : name ≠ "..") (hfree : world.root.bare? (above ++ [name]) = none) (target : String) :
    world.lstat (path.child name) ≠ .ok (.link target) := by
  obtain ⟨entries, hentries, hlookup⟩ := exists_entries_of_free hdir hfree
  unfold World.lstat World.locateParent
  rw [Path.name_child, if_neg (not_or.mpr ⟨hempty, hup⟩), Path.parent_child]
  by_cases hlength : pathMax ≤ (path.child name).byteLength
  · rw [if_pos hlength]
    rintro ⟨⟩
  · have habove := Nat.lt_of_le_of_lt (Path.byteLength_le_child path name) (Nat.not_le.mp hlength)
    rw [if_neg hlength, (h.leads hlegal hdir).locateFrom habove (Nat.zero_le _)]
    simp only [bind, Except.bind, hentries, hlookup, List.isEmpty_nil, Bool.not_true, Bool.false_eq_true, if_false]
    split <;> rintro ⟨⟩

/-- A path to a free place in a directory resolves to that place. -/
theorem Leads.resolves_child (hlegal : world.Legal) (h : world.Leads n path above) (hn : n ≤ linkMax)
    (hdir : world.root.HasDir above) (hproper : Path.isProper name = true) (hup : name ≠ "..")
    (hfree : world.root.bare? (above ++ [name]) = none) (hnul : (path.child name).hasNul = false)
    (hshort : ∀ next ∈ world.asked path, next.byteLength < pathMax) :
    world.Resolves (path.child name) (above ++ [name]) := by
  have hname : name ≠ "" ∧ name ≠ "." := by simpa [Path.isProper] using hproper
  obtain ⟨real, later, hpursue, hreal, -⟩ := RealPath.arrives_of_leads hlegal h hn hshort
  refine resolves_of_pursued hlegal hnul ?_ (hreal.child hup) (stat_root_of_free hlegal hdir hname.2 hup hfree)
  have hnolink := hreal.lstat_ne_link hlegal hdir hname.1 hup hfree
  exact congrArg RealPath.Outcome.path ((hpursue [name]).trans (RealPath.pursue_entry hproper hup hnolink []))

theorem noNul_of_reach (hlegal : world.Legal) {here : Location} {components : List String}
    (h : world.root.Reach n here components there) : ∀ component ∈ components, '\x00' ∉ component.toList := by
  induction h with
  | done => exact fun _ hmem => absurd hmem List.not_mem_nil
  | dot _ _ ih => exact List.forall_mem_cons.mpr ⟨by decide, ih⟩
  | up _ _ ih => exact List.forall_mem_cons.mpr ⟨by decide, ih⟩
  | down _ hnode _ _ ih => exact List.forall_mem_cons.mpr ⟨(hlegal.root _ _ hnode _ (by simp)).no_nul, ih⟩
  | link _ hnode _ ih =>
      exact List.forall_mem_cons.mpr ⟨(hlegal.root _ _ hnode _ (by simp)).no_nul, fun component hmem =>
        ih component (List.mem_append_right _ hmem)⟩

theorem Leads.noNul (hlegal : world.Legal) (h : world.Leads n path there) : path.hasNul = false := by
  obtain ⟨rest, hparts, hreach⟩ := h
  unfold Path.hasNul
  rw [List.any_eq_false]
  intro part hpart
  rw [hparts] at hpart
  rcases List.mem_append.mp hpart with hup | hrest
  · rw [List.eq_of_mem_replicate hup]
    decide
  · simpa using noNul_of_reach hlegal hreach part hrest

end World

namespace RealPath

/-- What is known about links are absolute paths. -/
def Seen.Absolute (seen : Seen) : Prop :=
  ∀ entry ∈ seen, ∀ real, entry.2 = some real → real.isAbsolute = true

theorem Seen.Absolute.of_lookup {seen : Seen} (h : seen.Absolute) {path real : Path}
    (hlookup : seen.lookup path = some (some real)) : real.isAbsolute = true := by
  obtain ⟨before, after, rfl, -⟩ := List.lookup_eq_some_iff.mp hlookup
  exact h (path, some real) (List.mem_append_right before List.mem_cons_self) real rfl

theorem Seen.Absolute.cons {seen : Seen} (h : seen.Absolute) (path : Path) {found : Option Path}
    (hfound : ∀ real, found = some real → real.isAbsolute = true) : Seen.Absolute ((path, found) :: seen) :=
  List.forall_mem_cons.mpr ⟨hfound, h⟩

theorem isAbsolute_up {path : Path} (h : path.isAbsolute = true) : (up path).isAbsolute = true := by
  unfold up
  split <;> exact h

theorem isAbsolute_followedBy {path : Path} (h : path.isAbsolute = true) (rest : List String) :
    (followedBy path rest).isAbsolute = true := by
  unfold followedBy
  dsimp only
  split
  · next hslash =>
    obtain ⟨more, hmore⟩ := List.isPrefixOf_iff_prefix.mp hslash
    have htext : ("/".intercalate rest).toList = '/' :: more := hmore.symm
    rw [Path.isAbsolute, Path.ofText, Anchor.ofText, htext, List.takeWhile_cons, if_pos (by decide), List.length_cons]
    split
    · next hzero => cases hzero
    · rfl
    · rfl
  · exact h

/-- The pursuit keeps to absolute paths. -/
def KeepsAbsolute (pursued : Path → List String → Seen → Outcome) : Prop :=
  ∀ path components seen, path.isAbsolute = true → Seen.Absolute seen →
    (pursued path components seen).path.isAbsolute = true ∧ (pursued path components seen).seen.Absolute

theorem keepsAbsolute_pursue {world : World} {expand : Path → List String → Seen → Outcome} (h : KeepsAbsolute expand) :
    KeepsAbsolute fun path components seen => pursue world expand components path seen := by
  intro path components seen hpath hseen
  induction components generalizing path seen with
  | nil => exact ⟨hpath, hseen⟩
  | cons component rest ih =>
      dsimp only [pursue]
      split
      · exact ih path seen hpath hseen
      · split
        · exact ih _ seen (isAbsolute_up hpath) hseen
        · split
          · next target _ =>
            split
            · next known hknown => exact ih known seen (hseen.of_lookup hknown) hseen
            · exact ⟨@isAbsolute_followedBy (path.child component) hpath rest, hseen⟩
            · have hstart : (if Text.startsWith target "/" then (⟨.root, []⟩ : Path) else path).isAbsolute = true := by
                split
                · rfl
                · exact hpath
              have hpending := hseen.cons (path.child component) (fun real (hnone : none = some real) => by cases hnone)
              generalize (if Text.startsWith target "/" then (⟨.root, []⟩ : Path) else path) = start at hstart ⊢
              obtain ⟨hfound, hlater⟩ := h start (Text.splitAt '/' target) _ hstart hpending
              split
              · refine ih _ _ hfound (hlater.cons (path.child component) ?_)
                rintro real ⟨⟩
                exact hfound
              · exact ⟨isAbsolute_followedBy hfound rest, hlater⟩
          · exact ih _ seen hpath hseen

theorem keepsAbsolute_pursueNested (world : World) (depth : Nat) : KeepsAbsolute (pursueNested world depth) := by
  induction depth with
  | zero => exact fun path components seen hpath hseen => ⟨isAbsolute_followedBy hpath components, hseen⟩
  | succ depth ih => exact keepsAbsolute_pursue ih

end RealPath

namespace World

/-- For an absolute path it does not matter whether there is a working directory. -/
theorem Resolves.of_isAbsolute (h : world.Resolves path there) (habsolute : path.isAbsolute = true) :
    world.resolve path = .ok ⟨.root, there⟩ := by
  rcases h with hreal | ⟨-, herror⟩
  · exact hreal
  · have hfound := (RealPath.keepsAbsolute_pursueNested world RealPath.nestingMax ⟨.root, []⟩ path.parts [] rfl
      fun _ hmem => absurd hmem List.not_mem_nil).1
    unfold resolve at herror
    rw [habsolute] at herror
    simp only [if_true, World.absolute, hfound] at herror
    split at herror
    · cases herror
    · split at herror
      · split at herror <;> cases herror
      · cases herror

end World
end ClassDump
