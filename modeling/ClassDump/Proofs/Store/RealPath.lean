import ClassDump.Proofs.Store.Straight

/-! The real path behind a path. Where the system finds a directory at the end of a path, the real path is that of the
location: links are replaced one by one, and those met on the way are remembered with what they lead to. A link cannot
be met while its own target is pursued, since its target takes fewer links than the way over it. All this needs an
answer of the system for each path that is asked about, and the system only answers for short ones. -/

namespace ClassDump

namespace Node

/-- The components of a target say what its pieces between slashes say. -/
theorem filter_targetComponents (target : String) :
    (targetComponents target).filter Path.isProper = (Text.splitAt '/' target).filter Path.isProper := by
  have hfilter : ((Text.splitAt '/' target).filter (· ≠ "")).filter Path.isProper =
      (Text.splitAt '/' target).filter Path.isProper := by
    rw [List.filter_filter]
    refine List.filter_congr fun piece _ => ?_
    by_cases hpiece : piece = "" <;> simp [Path.isProper, hpiece]
  unfold targetComponents
  dsimp only
  split
  · rw [List.filter_append, hfilter]
    exact List.append_nil _
  · exact hfilter

variable {root : Node} {n : Nat} {here there : Location} {components rest : List String} {component : String}

theorem Reach.eq_of_filter_eq_nil (hlegal : root.Legal) (h : root.Reach n here components there)
    (hnone : components.filter Path.isProper = []) : n = 0 ∧ there = here := by
  have hproper : ∀ {name : String} {rest : List String}, (name :: rest).filter Path.isProper = [] →
      Path.isProper name = false := fun hnone => by
    rw [List.filter_eq_nil_iff] at hnone
    simpa using hnone _ List.mem_cons_self
  induction h with
  | done here => exact ⟨rfl, rfl⟩
  | dot _ _ ih => exact ih hnone
  | up => cases hproper hnone
  | @down n here name rest there node _ hnode =>
      have hname := Path.isProper_of_legalName (hlegal _ _ hnode name (by simp))
      rw [hproper hnone] at hname
      cases hname
  | @link n here name rest there target _ hnode =>
      have hname := Path.isProper_of_legalName (hlegal _ _ hnode name (by simp))
      rw [hproper hnone] at hname
      cases hname

/-- Components lead on with the first one that says something. -/
theorem Reach.exists_cons_of_filter_eq (hlegal : root.Legal) (h : root.Reach n here components there)
    (hfirst : components.filter Path.isProper = component :: rest) :
    ∃ later, later.filter Path.isProper = rest ∧ root.Reach n here (component :: later) there := by
  induction h with
  | done here => cases hfirst
  | dot _ _ ih => exact ih hfirst
  | up hdir hrest =>
      obtain ⟨rfl, hlater⟩ := List.cons.inj hfirst
      exact ⟨_, hlater, .up hdir hrest⟩
  | @down n here name later there node hname hnode hlink hrest =>
      rw [List.filter_cons_of_pos (Path.isProper_of_legalName (hlegal _ _ hnode name (by simp)))] at hfirst
      obtain ⟨rfl, hlater⟩ := List.cons.inj hfirst
      exact ⟨later, hlater, .down hname hnode hlink hrest⟩
  | @link n here name later there target hname hnode hrest =>
      rw [List.filter_cons_of_pos (Path.isProper_of_legalName (hlegal _ _ hnode name (by simp)))] at hfirst
      obtain ⟨rfl, hlater⟩ := List.cons.inj hfirst
      exact ⟨later, hlater, .link hname hnode hrest⟩

end Node

namespace RealPath

/-- The paths that the system is asked about along written components; `askedIn` has those for the target of a link. -/
def asked (world : World) (expand : Path → List String → Seen → Outcome) (askedIn : Path → List String → Seen → List Path) :
    List String → Path → Seen → List Path
  | [], _, _ => []
  | component :: rest, path, seen =>
    if !Path.isProper component then asked world expand askedIn rest path seen
    else if component = ".." then asked world expand askedIn rest (up path) seen
    else
      let next := path.child component
      next ::
        match world.lstat next with
        | .ok (.link target) =>
          match seen.lookup next with
          | some (some known) => asked world expand askedIn rest known seen
          | some none => []
          | none =>
            let start := if Text.startsWith target "/" then ⟨.root, []⟩ else path
            let found := expand start (Text.splitAt '/' target) ((next, none) :: seen)
            askedIn start (Text.splitAt '/' target) ((next, none) :: seen) ++
              if found.complete then asked world expand askedIn rest found.path ((next, some found.path) :: found.seen)
              else []
        | _ => asked world expand askedIn rest next seen

/-- The paths that the system is asked about through links nested so deep at most. -/
def askedNested (world : World) : Nat → Path → List String → Seen → List Path
  | 0, _, _, _ => []
  | depth + 1, path, components, seen => asked world (pursueNested world depth) (askedNested world depth) components path seen

section Step

-- the steps below are opened by `change`, so that they do not all wait for the equations of the two recursions

variable {world : World} {expand : Path → List String → Seen → Outcome}
  {askedIn : Path → List String → Seen → List Path} {component : String} {path : Path} {seen : Seen}

theorem pursue_improper (h : Path.isProper component = false) (rest : List String) (path : Path) (seen : Seen) :
    pursue world expand (component :: rest) path seen = pursue world expand rest path seen := by
  change (if !Path.isProper component then _ else _) = _
  rw [h]
  rfl

theorem asked_improper (h : Path.isProper component = false) (rest : List String) (path : Path) (seen : Seen) :
    asked world expand askedIn (component :: rest) path seen = asked world expand askedIn rest path seen := by
  change (if !Path.isProper component then _ else _) = _
  rw [h]
  rfl

theorem pursue_up (rest : List String) (path : Path) (seen : Seen) :
    pursue world expand (".." :: rest) path seen = pursue world expand rest (up path) seen := rfl

theorem asked_up (rest : List String) (path : Path) (seen : Seen) :
    asked world expand askedIn (".." :: rest) path seen = asked world expand askedIn rest (up path) seen := rfl

variable (hproper : Path.isProper component = true) (hup : component ≠ "..")
include hproper hup

theorem mem_asked (rest : List String) :
    path.child component ∈ asked world expand askedIn (component :: rest) path seen := by
  change path.child component ∈ (if !Path.isProper component then _ else _)
  rw [hproper]
  simp only [Bool.not_true, Bool.false_eq_true, if_false, if_neg hup]
  exact List.mem_cons_self

theorem pursue_entry (h : ∀ target, world.lstat (path.child component) ≠ .ok (.link target)) (rest : List String) :
    pursue world expand (component :: rest) path seen = pursue world expand rest (path.child component) seen := by
  change (if !Path.isProper component then _ else _) = _
  rw [hproper]
  simp only [Bool.not_true, Bool.false_eq_true, if_false, if_neg hup]

theorem asked_entry (h : ∀ target, world.lstat (path.child component) ≠ .ok (.link target)) (rest : List String) :
    asked world expand askedIn (component :: rest) path seen =
      path.child component :: asked world expand askedIn rest (path.child component) seen := by
  change (if !Path.isProper component then _ else _) = _
  rw [hproper]
  simp only [Bool.not_true, Bool.false_eq_true, if_false, if_neg hup]

section Link

variable {target : String} (hlink : world.lstat (path.child component) = .ok (.link target))
include hlink

theorem pursue_known {known : Path} (h : seen.lookup (path.child component) = some (some known)) (rest : List String) :
    pursue world expand (component :: rest) path seen = pursue world expand rest known seen := by
  change (if !Path.isProper component then _ else _) = _
  rw [hproper]
  simp only [Bool.not_true, Bool.false_eq_true, if_false, if_neg hup, hlink, h]

theorem asked_known {known : Path} (h : seen.lookup (path.child component) = some (some known)) (rest : List String) :
    asked world expand askedIn (component :: rest) path seen =
      path.child component :: asked world expand askedIn rest known seen := by
  change (if !Path.isProper component then _ else _) = _
  rw [hproper]
  simp only [Bool.not_true, Bool.false_eq_true, if_false, if_neg hup, hlink, h]

variable {start : Path} (hstart : start = if Text.startsWith target "/" then ⟨.root, []⟩ else path)
  (h : seen.lookup (path.child component) = none)
include hstart h

theorem mem_asked_of_target {next : Path} (rest : List String)
    (hnext : next ∈ askedIn start (Text.splitAt '/' target) ((path.child component, none) :: seen)) :
    next ∈ asked world expand askedIn (component :: rest) path seen := by
  change next ∈ (if !Path.isProper component then _ else _)
  rw [hproper]
  simp only [Bool.not_true, Bool.false_eq_true, if_false, if_neg hup, hlink, h, ← hstart]
  exact List.mem_cons_of_mem _ (List.mem_append_left _ hnext)

variable {real : Path} {later : Seen}
  (hfound : expand start (Text.splitAt '/' target) ((path.child component, none) :: seen) = ⟨real, true, later⟩)
include hfound

theorem pursue_link (rest : List String) :
    pursue world expand (component :: rest) path seen =
      pursue world expand rest real ((path.child component, some real) :: later) := by
  change (if !Path.isProper component then _ else _) = _
  rw [hproper]
  simp only [Bool.not_true, Bool.false_eq_true, if_false, if_neg hup, hlink, h, ← hstart, hfound, if_true]

theorem asked_link (rest : List String) :
    asked world expand askedIn (component :: rest) path seen =
      path.child component :: (askedIn start (Text.splitAt '/' target) ((path.child component, none) :: seen) ++
        asked world expand askedIn rest real ((path.child component, some real) :: later)) := by
  change (if !Path.isProper component then _ else _) = _
  rw [hproper]
  simp only [Bool.not_true, Bool.false_eq_true, if_false, if_neg hup, hlink, h, ← hstart, hfound, if_true]

end Link

end Step

/-- At the path stands a link, and its target leads to the location by so many links. -/
def LinkAt (world : World) (path : Path) (n : Nat) (there : Location) : Prop :=
  ∃ above here name target, path = above.child name ∧ world.Straight above here ∧
    world.root.bare? (here ++ [name]) = some (.link target) ∧
      world.root.Reach n (Node.targetStart target here) (Node.targetComponents target) there

theorem LinkAt.unique {world : World} {path : Path} {n m : Nat} {there other : Location}
    (h : LinkAt world path n there) (hother : LinkAt world path m other) : n = m ∧ there = other := by
  obtain ⟨above, here, name, target, rfl, habove, hnode, hreach⟩ := h
  obtain ⟨above', here', name', target', hpath, habove', hnode', hreach'⟩ := hother
  obtain rfl : above = above' := by
    rw [← Path.parent_child above name, hpath, Path.parent_child]
  obtain rfl : name = name' := by
    rw [← Path.name_child above name, hpath, Path.name_child]
  obtain rfl := habove.unique habove'
  rw [hnode, Option.some.injEq, Node.link.injEq] at hnode'
  subst hnode'
  exact hreach.unique hreach'

/-- What was found out about the links met so far is true, and those that are still being found out about take so many
links at least. -/
structure Fair (world : World) (bound : Nat) (seen : Seen) : Prop where
  known : ∀ path n there real, LinkAt world path n there → seen.lookup path = some (some real) →
    world.Straight real there
  pending : ∀ path n there, LinkAt world path n there → seen.lookup path = some none → bound ≤ n

/-- The later links are known as they are, and no more of them are still being found out about. -/
structure Onward (world : World) (seen later : Seen) : Prop where
  known : ∀ path n there real, LinkAt world path n there → later.lookup path = some (some real) →
    world.Straight real there
  pending : ∀ path, later.lookup path = some none → seen.lookup path = some none

section Seen

variable {world : World} {bound n : Nat} {seen later final : Seen} {path real : Path} {there : Location}

theorem fair_nil (world : World) (bound : Nat) : Fair world bound [] where
  known path n there real _ hknown := by cases hknown
  pending path n there _ hpending := by cases hpending

theorem Fair.mono (h : Fair world bound seen) (hn : n ≤ bound) : Fair world n seen :=
  ⟨h.known, fun path m there hlink hpending => Nat.le_trans hn (h.pending path m there hlink hpending)⟩

theorem Fair.onward (h : Fair world bound seen) (hlater : Onward world seen later) : Fair world bound later :=
  ⟨hlater.known, fun path m there hlink hpending => h.pending path m there hlink (hlater.pending path hpending)⟩

theorem Fair.refl (h : Fair world bound seen) : Onward world seen seen := ⟨h.known, fun _ h => h⟩

theorem Onward.trans (h : Onward world seen later) (hnext : Onward world later final) : Onward world seen final :=
  ⟨hnext.known, fun path hpending => h.pending path (hnext.pending path hpending)⟩

/-- While the target of a link is pursued, the link takes just the links that its target takes. -/
theorem Fair.pend (h : Fair world bound seen) (hlink : LinkAt world path n there) (hn : n ≤ bound) :
    Fair world n ((path, none) :: seen) where
  known other m final real hother hknown := by
    rw [List.lookup_cons] at hknown
    split at hknown
    · cases hknown
    · exact h.known other m final real hother hknown
  pending other m final hother hpending := by
    rw [List.lookup_cons] at hpending
    split at hpending
    · next hsame =>
      rw [eq_of_beq hsame] at hother
      exact Nat.le_of_eq (hlink.unique hother).1
    · exact Nat.le_trans hn (h.pending other m final hother hpending)

/-- After its target was pursued, it is known where the link leads. -/
theorem Onward.learn (h : Onward world ((path, none) :: seen) later) (hlink : LinkAt world path n there)
    (hreal : world.Straight real there) : Onward world seen ((path, some real) :: later) where
  known other m final found hother hknown := by
    rw [List.lookup_cons] at hknown
    split at hknown
    · next hsame =>
      rw [eq_of_beq hsame] at hother
      obtain rfl := Option.some.inj (Option.some.inj hknown)
      obtain ⟨-, rfl⟩ := hlink.unique hother
      exact hreal
    · exact h.known other m final found hother hknown
  pending other hpending := by
    rw [List.lookup_cons] at hpending
    split at hpending
    · cases hpending
    · next hne =>
      have hbefore := h.pending other hpending
      rwa [List.lookup_cons, hne] at hbefore

end Seen

theorem exists_lstat {world : World} (hlegal : world.Legal) {path : Path} {here : Location} {name : String} {node : Node}
    (hpath : world.Straight path here) (hnode : world.root.bare? (here ++ [name]) = some node)
    (hlength : (path.child name).byteLength < pathMax) :
    ∃ found, world.lstat (path.child name) = .ok found ∧ found.bare = node := by
  have hdir := Node.hasDir_of_bare? hnode
  obtain ⟨entries, hentries⟩ := Node.hasDir_iff.mp hdir
  obtain ⟨found, hfound, hbare⟩ := Option.map_eq_some_iff.mp hnode
  have hname : LegalName name := hlegal.root _ _ hnode name (by simp)
  exact ⟨found, (hpath.leads hlegal hdir).lstat (Nat.zero_le _) hentries hname hlength hfound, hbare⟩

/-- Pursuing the components ends at a straight path to the location, whatever follows them. -/
def Arrives (world : World) (depth : Nat) (written : List String) (path : Path) (seen : Seen) (there : Location) :
    Prop :=
  ∃ real later, (∀ rest, pursue world (pursueNested world depth) (written ++ rest) path seen =
      pursue world (pursueNested world depth) rest real later) ∧
    world.Straight real there ∧ Onward world seen later

/-- All that the system is asked about on the way is short enough for an answer. -/
def Answered (world : World) (depth : Nat) (written : List String) (path : Path) (seen : Seen) : Prop :=
  ∀ next ∈ asked world (pursueNested world depth) (askedNested world depth) written path seen,
    next.byteLength < pathMax

section Arrives

variable {world : World} {n depth : Nat} {here there : Location} {component : String} {written : List String}
  {path next : Path} {seen later : Seen}

theorem Arrives.cons (h : Arrives world depth written next later there) (hseen : Onward world seen later)
    (hpursue : ∀ rest, pursue world (pursueNested world depth) (component :: rest) path seen =
      pursue world (pursueNested world depth) rest next later) :
    Arrives world depth (component :: written) path seen there := by
  obtain ⟨real, final, hrest, hreal, hfinal⟩ := h
  exact ⟨real, final, fun rest => (hpursue (written ++ rest)).trans (hrest rest), hreal, hseen.trans hfinal⟩

variable (hlegal : world.Legal) (hproper : Path.isProper component = true) (hup : component ≠ "..")
  (hpath : world.Straight path here) (hanswered : Answered world depth (component :: written) path seen)
include hlegal hproper hup hpath hanswered

/-- Over an entry that is no link, one arrives where the rest leads from it. -/
theorem arrives_entry {node : Node} (hnode : world.root.bare? (here ++ [component]) = some node)
    (hnolink : node.isLink = false) (hseen : Fair world n seen)
    (hrest : world.Straight (path.child component) (here ++ [component]) →
      Answered world depth written (path.child component) seen →
        Arrives world depth written (path.child component) seen there) :
    Arrives world depth (component :: written) path seen there := by
  obtain ⟨found, hfound, rfl⟩ := exists_lstat hlegal hpath hnode (hanswered _ (mem_asked hproper hup written))
  have hentry : ∀ target, world.lstat (path.child component) ≠ .ok (.link target) := by
    intro target hlink
    rw [hfound, Except.ok.injEq] at hlink
    subst hlink
    cases hnolink
  unfold Answered at hanswered
  rw [asked_entry hproper hup hentry] at hanswered
  exact (hrest (hpath.child hup) fun next hnext => hanswered next (List.mem_cons_of_mem _ hnext)).cons hseen.refl
    (pursue_entry hproper hup hentry)

/-- Over a link, one arrives where the rest leads from the end of its target, whether that is known or still to be
pursued. -/
theorem arrives_link {target : String} {k l : Nat} {mid : Location}
    (hnode : world.root.bare? (here ++ [component]) = some (.link target))
    (htarget : world.root.Reach k (Node.targetStart target here) (Node.targetComponents target) mid)
    (hseen : Fair world (k + l + 1) seen) (hdepth : 0 < depth)
    (hpursued : ∀ start, world.Straight start (Node.targetStart target here) →
      Fair world k ((path.child component, none) :: seen) →
        Answered world (depth - 1) (Text.splitAt '/' target) start ((path.child component, none) :: seen) →
          Arrives world (depth - 1) (Text.splitAt '/' target) start ((path.child component, none) :: seen) mid)
    (hrest : ∀ real later, world.Straight real mid → Fair world l later → Answered world depth written real later →
      Arrives world depth written real later there) :
    Arrives world depth (component :: written) path seen there := by
  obtain ⟨found, hfound, hbare⟩ := exists_lstat hlegal hpath hnode (hanswered _ (mem_asked hproper hup written))
  have hlink : world.lstat (path.child component) = .ok (.link target) := by
    rw [hfound, Node.bare_eq_link_iff.mp hbare]
  have hat : LinkAt world (path.child component) k mid :=
    ⟨path, here, component, target, rfl, hpath, hnode, htarget⟩
  unfold Answered at hanswered
  cases hlookup : seen.lookup (path.child component) with
  | some resolved =>
      cases resolved with
      | none =>
          -- its target takes fewer links than are still to be followed
          have hpending := hseen.pending _ k mid hat hlookup
          omega
      | some known =>
          rw [asked_known hproper hup hlink hlookup] at hanswered
          exact (hrest known seen (hseen.known _ k mid known hat hlookup) (hseen.mono (by omega)) fun next hnext =>
            hanswered next (List.mem_cons_of_mem _ hnext)).cons hseen.refl (pursue_known hproper hup hlink hlookup)
  | none =>
      obtain ⟨below, rfl⟩ : ∃ below, depth = below + 1 := ⟨depth - 1, by omega⟩
      obtain ⟨start, hstart⟩ : ∃ start, start = if Text.startsWith target "/" then ⟨.root, []⟩ else path := ⟨_, rfl⟩
      have hstraight := hpath.targetStart target
      rw [← hstart] at hstraight
      obtain ⟨real, later, hpursue, hreal, honward⟩ := hpursued start hstraight (hseen.pend hat (by omega))
        fun next hnext => hanswered next (mem_asked_of_target hproper hup hlink hstart hlookup written hnext)
      have hcomplete : pursueNested world (below + 1) start (Text.splitAt '/' target)
          ((path.child component, none) :: seen) = ⟨real, true, later⟩ := by
        have hend := hpursue []
        rwa [List.append_nil] at hend
      have hlater := honward.learn hat hreal
      rw [asked_link hproper hup hlink hstart hlookup hcomplete] at hanswered
      exact (hrest real _ hreal ((hseen.onward hlater).mono (by omega)) fun next hnext =>
        hanswered next (List.mem_cons_of_mem _ (List.mem_append_right _ hnext))).cons hlater
          (pursue_link hproper hup hlink hstart hlookup hcomplete)

end Arrives

/-- Where components reach a location, pursuing what was written for them arrives there, provided that every path asked
about is short enough for an answer. The induction is on the links still to be followed, and for as many of them on the
components. -/
theorem arrives_of_reach {world : World} (hlegal : world.Legal) {n depth : Nat} (hn : n ≤ depth)
    {here there : Location} {components written : List String} {path : Path} {seen : Seen}
    (hreach : world.root.Reach n here components there)
    (hwritten : components.filter Path.isProper = written.filter Path.isProper) (hpath : world.Straight path here)
    (hseen : Fair world n seen) (hanswered : Answered world depth written path seen) :
    Arrives world depth written path seen there := by
  induction n using Nat.strongRecOn generalizing depth here there components written path seen with
  | ind n ihn =>
    induction written generalizing here components path seen with
    | nil =>
        obtain ⟨-, rfl⟩ := hreach.eq_of_filter_eq_nil hlegal.root hwritten
        exact ⟨path, seen, fun _ => rfl, hpath, hseen.refl⟩
    | cons component written ih =>
        cases hproper : Path.isProper component with
        | false =>
            rw [List.filter_cons_of_neg (by simp [hproper])] at hwritten
            unfold Answered at hanswered
            rw [asked_improper hproper] at hanswered
            exact (ih hreach hwritten hpath hseen hanswered).cons hseen.refl fun rest => pursue_improper hproper rest _ _
        | true =>
            rw [List.filter_cons_of_pos hproper] at hwritten
            obtain ⟨more, hmore, hreach⟩ := hreach.exists_cons_of_filter_eq hlegal.root hwritten
            cases hreach with
            | dot => cases hproper
            | up hdir hrest =>
                unfold Answered at hanswered
                rw [asked_up] at hanswered
                exact (ih hrest hmore hpath.up hseen hanswered).cons hseen.refl fun rest => pursue_up rest _ _
            | down hname hnode hnolink hrest =>
                exact arrives_entry hlegal hproper hname.2.1 hpath hanswered hnode hnolink hseen fun hchild hanswers =>
                  ih hrest hmore hchild hseen hanswers
            | @link m _ _ _ _ target hname hnode hrest =>
                obtain ⟨k, l, mid, rfl, htarget, hmid⟩ := hrest.split rfl
                refine arrives_link hlegal hproper hname.2.1 hpath hanswered hnode htarget hseen (by omega) ?_ ?_
                · intro start hstart hpending hanswers
                  exact ihn k (by omega) (by omega) htarget (Node.filter_targetComponents target) hstart hpending hanswers
                · intro real later hreal hlater hanswers
                  exact ihn l (by omega) (by omega) hmid hmore hreal hlater hanswers

end RealPath
end ClassDump
