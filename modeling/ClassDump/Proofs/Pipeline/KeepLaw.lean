import ClassDump.Proofs.Classpath.Resolved
import ClassDump.Proofs.Pipeline.Consistency
import ClassDump.Proofs.Reconcile.Isolation
import ClassDump.Proofs.Reference.Readable

/-! What a run of the whole pipeline keeps. A dumped class stays where it is if its relative path is the key of a class
of the local build, by the bytes that the first entry of the classpath has for that class; every other dumped class is
found at the same relative path in the exclusion tree afterwards. -/

namespace ClassDump

namespace Pipeline

open Classpath Reconcile

variable {world base : World} {settings : Settings} {entries : List Path} {dump above relative : Location}

/-- The dumped class at a relative path is that of a class of the local build. -/
def IsNeeded (world : World) (entries : List Path) (relative : Location) : Prop :=
  ∃ entry ∈ entries, Reference.IsKeyBelow world entries entry (Path.mk .here relative).text

/-- A run that moves files and that nothing hinders: the entries of its classpath can be read, the class dump can be
gone through, and the exclusion tree can be made outside of it and takes what is not needed. -/
structure Unhindered (settings : Settings) (world : World) (entries : List Path) (dump above : Location) : Prop where
  legal : world.Legal
  faultless : world.faults = {}
  effective : settings.dryRun = false
  readable : Reference.Readable world entries
  nonempty : ∃ entry ∈ entries, ∃ relative, Reference.IsClassBelow world entry relative
  classdump : world.IsDirAt (Path.ofText settings.classdump) dump
  makable : world.Makable (Path.ofText settings.exclusion) above
  apart : ¬dump <+: above ++ [(Path.ofText settings.exclusion).name]
  answered : (pruneTask settings .empty false).Answered world
  standing : (pruneTask settings .empty false).Standing world
  noLink : ∀ relative node, world.root.bare? (dump ++ relative) = some node → node.isLink = false
  dirs : ∀ relative, world.root.HasDir (dump ++ relative) →
    ((Walk.Place.ofPath (Path.ofText settings.classdump)).descend relative).text.utf8ByteSize < pathMax
  files : ∀ relative node, node.isDir = false → world.root.bare? (dump ++ relative) = some node →
    isClassFile ((Path.ofText settings.classdump).descend relative) = true → ¬IsNeeded world entries relative →
      ((Path.ofText settings.classdump).descend relative).byteLength < pathMax ∧
        ((Path.ofText settings.exclusion).descend relative).byteLength < pathMax

namespace Unhindered

variable (h : Unhindered settings base entries dump above)
include h

theorem outside : isInside (pruneTask settings .empty false) base = .ok false :=
  isInside_of_makable h.legal (Path.isNormal_ofText _) h.classdump h.answered h.makable h.apart h.standing

section Usable

variable (husable : List.Forall₂ (Usable base) settings.classpath entries)
include husable

theorem resolved {entry : Path} (hentry : entry ∈ entries) : entry.IsResolved ∧ entry.hasNul = false := by
  obtain ⟨text, htext⟩ := exists_usable husable hentry
  exact ⟨htext.isResolved h.legal, htext.clean⟩

/-- The classpath is resolved to its entries, and its roots are the directories among them. -/
theorem exists_resolveClasspath (hsilent : world.silent = base.silent) :
    ∃ roots after, resolveClasspath settings world = (.ok (entries, roots), after) ∧ after.silent = base.silent ∧
      ∀ path, path ∈ roots.map (·.path) ↔ path ∈ entries ∧ base.isDir path = .ok true := by
  obtain ⟨-, hnul⟩ := noNul_of_isInside h.outside
  have hdir : world.isDir (Path.ofText settings.classdump) = .ok true := by
    rw [World.isDir_of_silent hsilent]
    exact h.classdump.isDir hnul
  have hentries : resolveEntries world (settings.classpath.map .text) = .ok entries :=
    resolveEntries_texts (husable.imp fun _ _ htext => htext.of_silent hsilent)
  obtain ⟨roots, after, hroots, hmem⟩ := @exists_resolveRoots world entries (fun _ => h.resolved husable) <| by
    rw [World.isDir_of_silent hsilent]
    exact h.readable.asked
  rw [World.isDir_of_silent hsilent] at hmem
  have hresolve : resolveClasspath settings world = (.ok (entries, roots), after.log .info .pipeline
      ("Using reference classes from local build classpath: " ++ Text.quoteList (entries.map Path.text))) := by
    unfold resolveClasspath
    simp only [hdir, hentries, hroots]
  have hafter := silent_resolveClasspath settings world
  rw [hresolve] at hafter
  exact ⟨roots, _, hresolve, hafter.trans hsilent, hmem⟩

/-- The reference set has the relative paths of exactly the needed classes. -/
theorem exists_buildReferenceSet {roots : List Root} {progress : Bool} (hsilent : world.silent = base.silent)
    (hroots : ∀ path, path ∈ roots.map (·.path) ↔ path ∈ entries ∧ base.isDir path = .ok true) :
    ∃ references after, buildReferenceSet entries roots progress world = (.ok references, after) ∧
      after.silent = base.silent ∧ ∀ relative, references.contains (Path.mk .here relative).text = true ↔
        IsNeeded base entries relative := by
  have hroot : ∀ entry ∈ entries, ∀ there, base.IsDirAt entry there → entry ∈ roots.map (·.path) :=
    fun entry hentry there hthere =>
      (hroots entry).mpr ⟨hentry, hthere.isDir (h.resolved husable hentry).2⟩
  have hsourced : ∀ root ∈ roots.map (·.path), ∃ there, Reference.Sourced base entries root there := by
    intro root hmem
    obtain ⟨hentry, hdir⟩ := (hroots root).mp hmem
    obtain ⟨hresolved, hnul⟩ := h.resolved husable hentry
    exact h.readable.exists_sourced h.legal (by rw [h.faultless]) hentry hresolved hnul hdir
  have hsome : ∃ root ∈ roots.map (·.path), ∃ relative, Reference.IsClassBelow base root relative := by
    obtain ⟨entry, hentry, relative, hclass⟩ := h.nonempty
    obtain ⟨there, -, hthere, -⟩ := id hclass
    exact ⟨entry, hroot entry hentry there hthere, relative, hclass⟩
  obtain ⟨references, source, after, hbuild, hcontains⟩ :=
    @Reference.exists_build base world entries (roots.map (·.path)) progress h.legal hsourced hsome hsilent
  have hkeys : buildReferenceSet entries roots progress world =
      (.ok references, after.log .debug .pipeline ("Keeping classes: " ++ Text.quoteList references.keys)) := by
    unfold buildReferenceSet
    rw [hbuild]
  have hafter := silent_buildReferenceSet entries roots progress world
  rw [hkeys] at hafter
  refine ⟨references, _, hkeys, hafter.trans hsilent, fun relative => ?_⟩
  rw [hcontains]
  constructor
  · rintro ⟨root, hmem, hkey⟩
    exact ⟨root, ((hroots root).mp hmem).1, hkey⟩
  · rintro ⟨entry, hentry, hkey⟩
    obtain ⟨other, ⟨there, _, hthere, _⟩, _⟩ := id hkey
    exact ⟨entry, hroot entry hentry there hthere, hkey⟩

end Usable

theorem site : Relocation.Site (base.withDir (above ++ [(Path.ofText settings.exclusion).name])).root dump
    (above ++ [(Path.ofText settings.exclusion).name]) :=
  (Relocation.setup_of_makable h.legal (Path.isNormal_ofText _) h.classdump.1 h.classdump.2 h.makable h.apart).site

/-- The class dump is pruned: of its classes, exactly those that are not needed are moved. -/
theorem exists_run {references : ReferenceSet} {progress : Bool} (hsilent : world.silent = base.silent)
    (hreferences : ∀ relative,
      references.contains (Path.mk .here relative).text = true ↔ IsNeeded base entries relative) :
    ∃ stats after moved, Reconcile.run (pruneTask settings references progress) world = (.ok stats, after) ∧
      Conserved base.root after.root dump (above ++ [(Path.ofText settings.exclusion).name]) moved ∧
      ∀ relative node, node.isDir = false → base.root.bare? (dump ++ relative) = some node →
        isClassFile ((Path.ofText settings.classdump).descend relative) = true →
          (relative ∈ moved ↔ ¬IsNeeded base entries relative) := by
  have hroot := World.root_eq_of_silent hsilent
  have hfaults : world.faults = {} := (congrArg World.faults hsilent).trans h.faultless
  have hmakable := h.makable.of_silent hsilent
  have hoff : ∀ relative, references.contains (Path.mk .here relative).text = false ↔ ¬IsNeeded base entries relative :=
    fun relative => by rw [← hreferences, Bool.not_eq_true]
  have hplain : Plain (pruneTask settings references progress) world dump := by
    constructor
    case noLink =>
      rw [hroot]
      exact h.noLink
    case dirs =>
      rw [hroot]
      exact fun relative _ _ hdir => h.dirs relative hdir
    case files =>
      rintro relative ⟨-, node, hnode, hbare⟩ hmoved
      obtain ⟨hclass, hcontains⟩ := prunes_of_fate_eq_moved hmoved
      rw [hroot] at hbare
      exact h.files relative node hnode hbare hclass ((hoff relative).mp hcontains)
    case copied =>
      intro relative hmem
      rw [hfaults] at hmem
      cases hmem
  obtain ⟨stats, after, steps, scan, hrun, hconserved, -, -, -, -, -, hsteps⟩ :=
    @exists_tally_of_run (pruneTask settings references progress) world dump above (h.legal.of_silent hsilent)
      (isRegular_pruneTask settings references progress) h.effective (Path.isNormal_ofText _) (Path.isNormal_ofText _)
      (by rw [World.locateFrom_of_silent hsilent]; exact h.classdump.1) (by rw [hroot]; exact h.classdump.2)
      hmakable h.apart
      ((isInside_of_silent hsilent rfl rfl).trans h.outside) hplain
  rw [hroot] at hconserved
  refine ⟨stats, after, _, hrun, hconserved, fun relative node hnode hbare hclass => ?_⟩
  rw [mem_handed_iff, hsteps, ← hoff]
  constructor
  · rintro ⟨-, hmoved⟩
    exact (prunes_of_fate_eq_moved hmoved).2
  · intro hcontains
    rw [← hroot] at hbare
    exact ⟨⟨visible_of_faultless hfaults, node, hnode, hbare⟩, fate_eq_moved hfaults ⟨hclass, hcontains⟩⟩

end Unhindered

/-- A run with a usable classpath that nothing hinders returns. A dumped class stays where it is exactly if it is
needed, and goes to the same relative path in the exclusion tree otherwise, in either case as it was. -/
theorem keeps_needed (h : Unhindered settings world entries dump above)
    (husable : List.Forall₂ (Usable world) settings.classpath entries) (command : Command) (progress : Bool) :
    ∃ stats later after, command.execute settings progress world = (.ok stats, later, after) ∧
      ∀ relative node, isClassFile ((Path.ofText settings.classdump).descend relative) = true → node.isDir = false →
        world.root.get? (dump ++ relative) = some node →
          (after.root.get? (dump ++ relative) = some node ↔ IsNeeded world entries relative) ∧
          (¬IsNeeded world entries relative →
            after.root.get? (above ++ [(Path.ofText settings.exclusion).name] ++ relative) = some node) := by
  have hlogged := World.silent_log world .info .pipeline
    ("Pruning Jacoco classdump at: " ++ (Path.ofText settings.classdump).text)
  obtain ⟨roots, resolved, hresolve, hresolved, hroots⟩ := h.exists_resolveClasspath husable hlogged
  obtain ⟨references, built, hbuild, hbuilt, hreferences⟩ :=
    @Unhindered.exists_buildReferenceSet _ _ _ _ _ _ h husable roots progress hresolved hroots
  obtain ⟨stats, after, moved, hrun, hconserved, hmoved⟩ :=
    @Unhindered.exists_run _ _ _ _ _ _ h references progress hbuilt hreferences
  refine ⟨recordStages stats, ⟨some references⟩, after, ?_, fun relative node hclass hnode hfile => ?_⟩
  · unfold Command.execute
    simp only [hresolve, hbuild, hrun]
  · have hmem := hmoved relative node hnode ((Node.bare?_eq_some_iff hnode).mpr hfile) hclass
    have hstays := hconserved.get?_iff_not_mem hnode (h.site.dump_ne_exclusion relative) hfile
    exact ⟨by rw [hstays, hmem, not_not], fun hneedless => hconserved.get?_moved hnode (hmem.mpr hneedless) hfile⟩

/-- A local build in whose classpath one class hides another of the same name, and a dump with both and a third. -/
def shadowedBuild : World where
  root := .dir
    [("lib", .dir [("K.class", .file [2])]),
      ("classes", .dir [("K.class", .file [1])]),
      ("dump", .dir
        [("K.0360000000000000.class", .file [3]),
          ("K.01b0000000000000.class", .file [4]),
          ("p", .dir [("L.class", .file [5])])])]
  workingDir := ⟨[], []⟩
  home := "/"

/-- Nothing hinders a run there, whatever its classpath is otherwise. -/
theorem unhindered_shadowedBuild {classpath : List String} {entries : List Path}
    (hreadable : Reference.Readable shadowedBuild entries) (hlib : Path.ofText "/lib" ∈ entries) :
    Unhindered ⟨"dump", classpath, "aside", false⟩ shadowedBuild entries ["dump"] [] := by
  have hname : (Path.ofText "aside").name = "aside" := by decide
  have hdump : ∀ relative node, shadowedBuild.root.bare? (["dump"] ++ relative) = some node → node.isLink = false ∧
      ((Walk.Place.ofPath (Path.ofText "dump")).descend relative).text.utf8ByteSize < pathMax ∧
      ((Path.ofText "dump").descend relative).byteLength < pathMax ∧
      ((Path.ofText "aside").descend relative).byteLength < pathMax := by
    intro relative node hbare
    exact @Node.forall_of_flatten shadowedBuild.root (fun location node => ["dump"] <+: location → node.isLink = false ∧
      ((Walk.Place.ofPath (Path.ofText "dump")).descend (location.drop 1)).text.utf8ByteSize < pathMax ∧
      ((Path.ofText "dump").descend (location.drop 1)).byteLength < pathMax ∧
      ((Path.ofText "aside").descend (location.drop 1)).byteLength < pathMax) (by decide +kernel) _ _ hbare
      (List.prefix_append _ _)
  have hclassdump : shadowedBuild.locateFrom linkMax (Path.ofText "dump") = .ok ⟨["dump"], []⟩ := by decide +kernel
  have hmakable : shadowedBuild.Makable (Path.ofText "aside") [] := by
    refine ⟨by decide, by decide +kernel, by decide, by decide, by decide, by decide +kernel, rfl, ?_⟩
    rw [hname]
    rfl
  have hanswered : (pruneTask ⟨"dump", [], "aside", false⟩ .empty false).Answered shadowedBuild := by
    unfold Task.Answered
    decide +kernel
  constructor
  case legal => exact ⟨Node.legal_of_flatten (by decide +kernel), rfl⟩
  case faultless => rfl
  case effective => rfl
  case readable => exact hreadable
  case nonempty =>
    exact ⟨_, hlib, ["K.class"], ["lib"], .file [2], ⟨by decide +kernel, rfl⟩, rfl, rfl, by decide +kernel⟩
  case classdump => exact ⟨hclassdump, rfl⟩
  case makable => exact hmakable
  case apart =>
    rw [hname]
    decide
  case answered => exact hanswered
  case standing => exact .inl rfl
  case noLink => exact fun relative node hbare => (hdump _ _ hbare).1
  case dirs => exact fun relative hbare => (hdump _ _ hbare).2.1
  case files => exact fun relative node _ hbare _ _ => (hdump _ _ hbare).2.2

theorem isDirAt_shadowedBuild : ∀ dir ∈ [(Path.ofText "/lib", ["lib"]), (Path.ofText "/classes", ["classes"])],
    shadowedBuild.IsDirAt dir.1 dir.2 := by
  intro dir hdir
  rcases List.mem_pair.mp hdir with rfl | rfl
  · exact ⟨by decide +kernel, rfl⟩
  · exact ⟨by decide +kernel, rfl⟩

theorem isNeeded_shadowedBuild_iff {relative : Location} :
    IsNeeded shadowedBuild [Path.ofText "/lib", Path.ofText "/classes"] relative ↔
      (Path.mk .here relative).text = "K.0360000000000000.class" := by
  have hclasses : ∀ entry ∈ [Path.ofText "/lib", Path.ofText "/classes"], ∀ location,
      Reference.IsClassBelow shadowedBuild entry location → location = ["K.class"] := by
    rintro entry hentry location ⟨there, node, hthere, hnode, hbare, -⟩
    have hplace : there = ["lib"] ∨ there = ["classes"] := by
      rcases List.mem_pair.mp hentry with rfl | rfl
      · exact .inl (hthere.unique (isDirAt_shadowedBuild _ List.mem_cons_self))
      · exact .inr (hthere.unique (isDirAt_shadowedBuild _ (List.mem_cons_of_mem _ List.mem_cons_self)))
    have honly := @Node.forall_of_flatten shadowedBuild.root (fun found node => node.isDir = false →
      ∀ place ∈ [["lib"], ["classes"]], place <+: found → found.drop 1 = ["K.class"]) (by decide +kernel) _ _
      hbare hnode
    rcases hplace with rfl | rfl
    · exact honly ["lib"] List.mem_cons_self (List.prefix_append _ _)
    · exact honly ["classes"] (List.mem_cons_of_mem _ List.mem_cons_self) (List.prefix_append _ _)
  have hfirst : firstAnswer shadowedBuild (Path.mk .here ["K.class"]).text
      [Path.ofText "/lib", Path.ofText "/classes"] = .ok (some [2]) := by decide +kernel
  have hkey : Reference.keyOf (Path.mk .here ["K.class"]).text [2] = "K.0360000000000000.class" := by decide +kernel
  constructor
  · rintro ⟨entry, hentry, location, hclass, hat⟩
    obtain rfl := hclasses entry hentry location hclass
    exact (hat.eq_keyOf hfirst).trans hkey
  · intro htext
    have hclass : Reference.IsClassBelow shadowedBuild (Path.ofText "/lib") ["K.class"] :=
      ⟨["lib"], .file [2], ⟨by decide +kernel, rfl⟩, rfl, rfl, by decide +kernel⟩
    exact ⟨_, List.mem_cons_self, ["K.class"], hclass, [2], hfirst, htext.trans hkey.symm⟩

/-- The class that hides the other keeps its dumped one, and the two other dumped classes are moved. -/
theorem keeps_needed_shadowedBuild :
    ∃ stats later after,
      ({} : Command).execute ⟨"dump", ["lib", "classes"], "aside", false⟩ false shadowedBuild =
        (.ok stats, later, after) ∧
        after.root.get? ["dump", "K.0360000000000000.class"] = some (.file [3]) ∧
        after.root.get? ["aside", "K.01b0000000000000.class"] = some (.file [4]) ∧
        after.root.get? ["aside", "p", "L.class"] = some (.file [5]) := by
  have hreadable : Reference.Readable shadowedBuild [Path.ofText "/lib", Path.ofText "/classes"] :=
    Reference.readable_of_flatten isDirAt_shadowedBuild (by decide +kernel) (by decide +kernel)
  have hlib : Usable shadowedBuild "lib" (Path.ofText "/lib") :=
    ⟨by decide, by decide, by decide +kernel, by decide⟩
  have hclasses : Usable shadowedBuild "classes" (Path.ofText "/classes") :=
    ⟨by decide, by decide, by decide +kernel, by decide⟩
  obtain ⟨stats, later, after, hrun, hlaw⟩ :=
    keeps_needed (unhindered_shadowedBuild hreadable List.mem_cons_self) (.cons hlib (.cons hclasses .nil)) {} false
  have hname : (Path.ofText "aside").name = "aside" := by decide
  rw [hname] at hlaw
  refine ⟨stats, later, after, hrun, ?_, ?_, ?_⟩
  · refine (hlaw ["K.0360000000000000.class"] (.file [3]) (by decide +kernel) rfl rfl).1.mpr ?_
    rw [isNeeded_shadowedBuild_iff]
    decide
  · refine (hlaw ["K.01b0000000000000.class"] (.file [4]) (by decide +kernel) rfl rfl).2 ?_
    rw [isNeeded_shadowedBuild_iff]
    decide
  · refine (hlaw ["p", "L.class"] (.file [5]) (by decide +kernel) rfl rfl).2 ?_
    rw [isNeeded_shadowedBuild_iff]
    decide

/-- With a blank entry in its classpath the same run is refused although nothing else hinders it, and so it is with an
entry that holds a NUL character. A local build whose one class is a special file is refused as well: there the class
cannot be read. -/
theorem refused_of_unusable :
    (∃ settings entries,
      Settings.make shadowedBuild (some "dump") ["lib", "classes", " "] (some "aside") false = .ok settings ∧
      (settings.classpath.map fun text => shadowedBuild.absolute (Path.ofText
        (Path.expandHome shadowedBuild.home shadowedBuild.accounts text))) = entries.map .ok ∧
      Unhindered settings shadowedBuild entries ["dump"] [] ∧
      (({} : Command).execute settings false shadowedBuild).1 = .error (.configuration (.entryBlank "' '"))) ∧
    (∃ settings,
      Settings.make shadowedBuild (some "dump") ["lib", "classes", "x\x00"] (some "aside") false = .ok settings ∧
      Unhindered settings shadowedBuild [Path.ofText "/lib", Path.ofText "/classes"] ["dump"] [] ∧
      (({} : Command).execute settings false shadowedBuild).1 = .error (.configuration (.entryNul "x\x00"))) ∧
    ∃ settings,
      Settings.make specialBuild (some "dump") ["classes"] (some "aside") false = .ok settings ∧
      specialBuild.faults = {} ∧ (∀ location goal, specialBuild.root.bare? location ≠ some (.link goal)) ∧
      specialBuild.IsDirAt (Path.ofText settings.classdump) ["dump"] ∧
      specialBuild.Makable (Path.ofText settings.exclusion) [] ∧
      Reference.IsClassBelow specialBuild (Path.ofText "/classes") ["K.class"] ∧
      (({} : Command).execute settings false specialBuild).1 =
        .error (.consistency "K" "no classpath entry provides it") := by
  have hblank : Reference.Readable shadowedBuild [Path.ofText "/lib", Path.ofText "/classes", Path.ofText "/ "] :=
    Reference.readable_of_flatten isDirAt_shadowedBuild (by decide +kernel) (by decide +kernel)
  have hnul : Reference.Readable shadowedBuild [Path.ofText "/lib", Path.ofText "/classes"] :=
    Reference.readable_of_flatten isDirAt_shadowedBuild (by decide +kernel) (by decide +kernel)
  have hmakable : specialBuild.Makable (Path.ofText "aside") [] :=
    ⟨by decide, by decide +kernel, by decide, by decide, by decide, by decide +kernel, rfl, by decide +kernel⟩
  refine ⟨?_, ?_, ?_⟩
  · exact ⟨⟨"dump", ["lib", "classes", " "], "aside", false⟩, _, rfl, by decide +kernel,
      unhindered_shadowedBuild hblank List.mem_cons_self, by decide +kernel⟩
  · exact ⟨⟨"dump", ["lib", "classes", "x\x00"], "aside", false⟩, rfl,
      unhindered_shadowedBuild hnul List.mem_cons_self, by decide +kernel⟩
  · have hclass : Reference.IsClassBelow specialBuild (Path.ofText "/classes") ["K.class"] :=
      ⟨["classes"], .special, ⟨by decide +kernel, rfl⟩, rfl, rfl, by decide +kernel⟩
    exact ⟨⟨"dump", ["classes"], "aside", false⟩, rfl, rfl, noLink_specialBuild, ⟨by decide +kernel, rfl⟩, hmakable,
      hclass, by decide +kernel⟩

end Pipeline
end ClassDump
