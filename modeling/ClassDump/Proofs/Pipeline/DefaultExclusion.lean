import ClassDump.Proofs.Pipeline.Adapters
import ClassDump.Proofs.Reconcile.Outside

/-! Where pruned files go if nobody says where. The command line takes the real path of the class dump, so that its
default is beside the directory itself, whatever links lead there. The build step goes by the letter of the absolute path:
double dots take the name before them away even if that is a link, and a link in the last place counts as the directory.
The two meet wherever neither matters. -/

namespace ClassDump

namespace Node

/-- Without links components lead where they lead by the letter. -/
theorem Reach.foldl_step {root : Node} {here there : Location} {components : List String}
    (h : root.Reach 0 here components there) (hdots : "." ∉ components) : components.foldl Path.step here = there := by
  generalize hn : 0 = n at h
  induction h with
  | done here => rfl
  | dot => exact absurd List.mem_cons_self hdots
  | up _ _ ih => exact ih (fun hmem => hdots (List.mem_cons_of_mem _ hmem)) hn
  | down hname _ _ _ ih =>
      rw [List.foldl_cons, Path.step, if_neg hname.2.1]
      exact ih (fun hmem => hdots (List.mem_cons_of_mem _ hmem)) hn
  | link => cases hn

end Node

namespace World

variable {world : World} {n : Nat} {path named : Path} {there dump : Location}

theorem isResolved_root (hlegal : world.Legal) (hdir : world.root.HasDir there) : (Path.mk .root there).IsResolved where
  isAbsolute := rfl
  isNormal name hname :=
    ⟨(hlegal.root _ _ hdir name hname).ne_empty, (hlegal.root _ _ hdir name hname).isName.1,
      (hlegal.root _ _ hdir name hname).no_slash⟩
  noUp hup := (hlegal.root _ _ hdir ".." hup).isName.2.1 rfl

theorem Leads.of_root {anchor : Anchor} {parts : List String} (hanchor : anchor.isAbsolute = true)
    (h : world.Leads n ⟨.root, parts⟩ there) : world.Leads n ⟨anchor, parts⟩ there := by
  cases anchor with
  | here => cases hanchor
  | root => exact h
  | doubleRoot => exact h

/-- An absolute form says where its path starts. -/
theorem absolute_cases (h : world.absolute path = .ok named) : named.isAbsolute = true ∧
    (world.start path).removed = [] ∧ named.parts = Path.collapse ((world.start path).location ++ path.parts) := by
  obtain ⟨anchor, parts⟩ := path
  unfold World.absolute World.currentDir at h
  cases anchor with
  | here =>
      cases hremoved : world.workingDir.removed with
      | cons first rest =>
          rw [hremoved] at h
          cases h
      | nil =>
          rw [hremoved] at h
          cases h
          exact ⟨rfl, hremoved, rfl⟩
  | root =>
      cases h
      exact ⟨rfl, rfl, rfl⟩
  | doubleRoot =>
      cases h
      exact ⟨rfl, rfl, rfl⟩

theorem up_not_mem_start (hlegal : world.Legal) (path : Path) : ".." ∉ (world.start path).location := by
  unfold World.start
  split
  · exact List.not_mem_nil
  · exact fun hmem => (hlegal.root _ _ hlegal.workingDir ".." hmem).isName.2.1 rfl

theorem exists_absolute (hstands : path.isAbsolute = true ∨ world.workingDir.removed = []) :
    ∃ named, world.absolute path = .ok named := by
  unfold World.absolute
  by_cases habsolute : path.isAbsolute = true
  · exact ⟨_, if_pos habsolute⟩
  · rw [if_neg habsolute, World.currentDir, hstands.resolve_left habsolute]
    exact ⟨_, rfl⟩

section Absolute

variable (hlegal : world.Legal) (h : world.absolute path = .ok named)
include hlegal h

theorem parts_absolute_of_no_up (hup : ".." ∉ path.parts) :
    named.parts = (world.start path).location ++ path.parts := by
  rw [(absolute_cases h).2.2]
  exact Path.collapse_eq_self fun hmem => (List.mem_append.mp hmem).elim (up_not_mem_start hlegal path) hup

/-- If no link is on the way to a directory, the absolute form of its path spells out where it is. -/
theorem parts_absolute_of_leads (hnormal : path.IsNormal) (hleads : world.Leads 0 path dump) : named.parts = dump := by
  obtain ⟨-, hremoved, hparts⟩ := absolute_cases h
  obtain ⟨rest, hrest, hreach⟩ := hleads
  rw [hremoved] at hrest
  have hsame : path.parts = rest := hrest
  have hstart := Path.collapse_eq_self (up_not_mem_start hlegal path)
  rw [hparts, Path.collapse, List.foldl_append, ← Path.collapse, hstart, hsame]
  exact hreach.foldl_step fun hmem => (hnormal "." (hsame ▸ hmem)).2.1 rfl

/-- Without double dots, what is above a path is above its absolute form. -/
theorem leads_parent_absolute (hup : ".." ∉ path.parts) (hne : path.parts ≠ [])
    (hleads : world.Leads n path.parent there) : world.Leads n named.parent there := by
  obtain ⟨habsolute, hremoved, -⟩ := absolute_cases h
  obtain ⟨rest, hrest, hreach⟩ := hleads
  have hstart : world.start path.parent = world.start path := rfl
  rw [hstart] at hrest hreach
  rw [hremoved] at hrest
  have hsame : path.parts.dropLast = rest := hrest
  have hparts : named.parent.parts = (world.start path).location ++ rest := by
    change named.parts.dropLast = _
    rw [parts_absolute_of_no_up hlegal h hup, List.dropLast_append_of_ne_nil hne, hsame]
  have hroot : world.start named.parent = ⟨[], []⟩ := if_pos habsolute
  have hway : world.root.Reach 0 [] (world.start path).location (world.start path).location := by
    unfold World.start
    split
    · exact .done []
    · exact Node.reach_names (fun name hname => (hlegal.root _ _ hlegal.workingDir name hname).isName) hlegal.workingDir
        rfl
  refine ⟨named.parent.parts, by rw [hroot]; rfl, ?_⟩
  rw [hroot, hparts, ← Nat.zero_add n]
  exact hway.append hreach

omit h in
/-- A name that is no link leads to the entry of this name. -/
theorem eq_of_reach_last {m : Nat} {name : String} (hn : n ≤ linkMax) (hleads : world.Leads n path there)
    (hlast : world.root.Reach m there [name] dump) (hlength : (path.child name).byteLength < pathMax)
    (hlink : world.isLink (path.child name) = false) (hdot : name ≠ ".") (hup : name ≠ "..") :
    dump = there ++ [name] := by
  cases hlast with
  | dot => exact absurd rfl hdot
  | up => exact absurd rfl hup
  | down _ _ _ hrest =>
      cases hrest
      rfl
  | @link _ _ _ _ _ target _ hnode =>
      obtain ⟨entries, hentries⟩ := Node.hasDir_iff.mp (Node.hasDir_of_bare? hnode)
      have hname : LegalName name := hlegal.root _ _ hnode name (by simp)
      have hlstat := hleads.lstat hn hentries hname hlength ((Node.bare?_eq_some_iff rfl).mp hnode)
      have hnul : (path.child name).hasNul = false :=
        @Path.hasNul_descend [name] path (hleads.noNul hlegal) fun other hother => List.mem_singleton.mp hother ▸ hname
      rw [World.isLink, hnul, hlstat] at hlink
      cases hlink

/-- What is above a directory is above the absolute form of its path, if no link is on the way, or if there are no
double dots and the directory is not named by a link itself. -/
theorem exists_leads_parent (hnormal : path.IsNormal) (hdump : world.IsDirAt path dump)
    (hway : world.Leads 0 path dump ∨ ".." ∉ path.parts ∧ world.isLink path = false) :
    ∃ n, world.Leads n named.parent dump.dropLast := by
  obtain ⟨n, hn, hleads, hlength⟩ := exists_leads_of_locateFrom hdump.1
  have hstraight : world.Leads 0 path dump → world.Leads 0 named.parent dump.dropLast := by
    intro hnone
    have hparts := parts_absolute_of_leads hlegal h hnormal hnone
    have hparent : named.parent = ⟨named.anchor, dump.dropLast⟩ := by rw [Path.parent, hparts]
    rw [hparent]
    exact (leads_root hlegal (Node.hasDir_dropLast hdump.2)).of_root (absolute_cases h).1
  rcases hway with hnone | ⟨hup, hlink⟩
  · exact ⟨0, hstraight hnone⟩
  · by_cases hempty : path.name = ""
    · obtain ⟨rfl, -⟩ := hleads.eq_start (hnormal.parts_eq_nil hempty)
      exact ⟨0, hstraight hleads⟩
    · have hname := Path.name_mem_parts hempty
      have hpath := Path.child_name_parent hempty
      rw [← hpath, Path.child_eq_descend] at hleads
      have hnames : ∀ name ∈ [path.name], name ≠ ".." := fun name hmem heq =>
        hup (heq ▸ List.mem_singleton.mp hmem ▸ hname)
      obtain ⟨k, l, mid, rfl, hparent, hlast⟩ := hleads.split hnames
      have hdump' := eq_of_reach_last hlegal (Nat.le_trans (Nat.le_add_right k l) hn) hparent hlast
        (by rwa [hpath]) (by rwa [hpath]) (hnormal _ hname).2.1 (hnames _ List.mem_cons_self)
      rw [hdump', List.dropLast_concat]
      exact ⟨k, leads_parent_absolute hlegal h hup (List.ne_nil_of_mem hname) hparent⟩

end Absolute

end World

namespace Settings

variable {world : World} {named : Path}

theorem isNormal_default (h : named.IsNormal) : (named.parent.child defaultExclusionName).IsNormal :=
  h.parent.child (by decide)

theorem make_of_no_exclusion {classdump : String} {classpath : List String} (hsaid : Text.allBlank classdump = false)
    (hentries : classpath ≠ []) (h : world.absolute (Path.ofText classdump) = .ok named) (dryRun : Bool) :
    make world (some classdump) classpath none dryRun =
      .ok ⟨classdump, classpath, (named.parent.child defaultExclusionName).text, dryRun⟩ := by
  have hempty : classpath.isEmpty = false := by simpa using hentries
  unfold make defaultExclusion
  dsimp only
  rw [Option.getD_some, hsaid, hempty, h]
  rfl

end Settings

/-- Both ways into the pipeline are given the class dump and some classpath, but no exclusion directory. -/
structure GivenDump (text : String) (arguments : CommandLine.Arguments) (properties : List (String × Option String)) :
    Prop where
  classdump : arguments.classdump = .text text
  entries : arguments.entries ≠ []
  exclusion : arguments.exclusion? = none
  classdumpProperty : Settings.property? properties Settings.classdumpProperty = some text
  classpathProperty : ∃ classpath, Settings.property? properties Settings.classpathProperty = some classpath ∧
    Classpath.split classpath ≠ []
  exclusionProperty : Settings.property? properties Settings.exclusionProperty = none

namespace GivenDump

variable {text : String} {arguments : CommandLine.Arguments} {properties : List (String × Option String)} {world : World}
  (h : GivenDump text arguments properties)
include h

/-- The command line puts the default beside the directory that the class dump is. -/
theorem exists_settingsOf {dump : Location} (hlegal : world.Legal) (hdir : world.root.HasDir dump)
    (hreal : world.resolve (Path.ofText text) = .ok ⟨.root, dump⟩) :
    ∃ settings, CommandLine.settingsOf arguments world = .ok settings ∧
      Path.ofText settings.exclusion = ⟨.root, dump.dropLast ++ [Settings.defaultExclusionName]⟩ := by
  have hresolved := World.isResolved_root hlegal hdir
  have habsolute : world.absolute (Path.ofText (Path.mk .root dump).text) = .ok ⟨.root, dump⟩ := by
    rw [Path.ofText_text hresolved.isNormal rfl, world.absolute_of_isResolved hresolved]
  refine ⟨⟨(Path.mk .root dump).text, arguments.entries,
    ((Path.mk .root dump).parent.child Settings.defaultExclusionName).text, arguments.dryRun⟩, ?_, ?_⟩
  · unfold CommandLine.settingsOf
    rw [h.classdump, h.exclusion]
    simp only [Option.mapM_none, CommandLine.realText, hreal, bind, Except.bind, pure, Except.pure]
    exact Settings.make_of_no_exclusion (Path.allBlank_text rfl) h.entries habsolute _
  · exact Path.ofText_text (Settings.isNormal_default hresolved.isNormal) rfl

/-- The build step puts the default beside the class dump as the absolute form of its path has it. -/
theorem exists_ofProperties {named : Path} (hsaid : Text.allBlank text = false) (hnormal : named.IsNormal)
    (habsolute : named.isAbsolute = true) (hnamed : world.absolute (Path.ofText text) = .ok named) :
    ∃ settings, Settings.ofProperties world properties = .ok settings ∧
      Path.ofText settings.exclusion = named.parent.child Settings.defaultExclusionName := by
  obtain ⟨classpath, hclasspath, hentries⟩ := h.classpathProperty
  refine ⟨⟨text, Classpath.split classpath, (named.parent.child Settings.defaultExclusionName).text, false⟩, ?_, ?_⟩
  · rw [Settings.ofProperties, h.classdumpProperty, hclasspath, h.exclusionProperty]
    dsimp only
    rw [Settings.make_of_no_exclusion hsaid hentries hnamed]
  · exact Path.ofText_text (Settings.isNormal_default hnormal) habsolute

/-- The build step comes to no settings for a path that has no absolute form. -/
theorem ofProperties_eq_error {error : OsError} (hsaid : Text.allBlank text = false)
    (hnone : world.absolute (Path.ofText text) = .error error) :
    Settings.ofProperties world properties = .error (.ofOs error) := by
  obtain ⟨classpath, hclasspath, hentries⟩ := h.classpathProperty
  have hempty : (Classpath.split classpath).isEmpty = false := by simpa using hentries
  rw [Settings.ofProperties, h.classdumpProperty, hclasspath, h.exclusionProperty]
  unfold Settings.make Settings.defaultExclusion
  dsimp only
  rw [Option.getD_some, hsaid, hempty, hnone]
  rfl

end GivenDump

open Settings (defaultExclusionName) in
/-- Where pruned files go by default. Given the same class dump, a directory, the command line always chooses the place
beside that directory. The build step chooses the place beside what the absolute form of the path names by its letters,
and this is the same place exactly if that form, less its last name, leads to the directory above the dump. It does if no
link is on the way, and also if there are no double dots and the dump itself is not named by a link. Only in a working
directory that was removed the build step comes to no settings for a relative path. -/
theorem defaultExclusion_exact {text : String} {arguments : CommandLine.Arguments}
    {properties : List (String × Option String)} {world : World} (hlegal : world.Legal)
    (hgiven : GivenDump text arguments properties) (hsaid : Text.allBlank text = false)
    (hdir : world.isDir (Path.ofText text) = .ok true)
    (hshort : ∀ next ∈ world.asked (Path.ofText text), next.byteLength < pathMax) :
    ((Path.ofText text).isAbsolute = false ∧ world.workingDir.removed ≠ [] ∧
        Settings.ofProperties world properties = .error (.ofOs (.refused .noEntry none none))) ∨
      ∃ dump line step named, world.IsDirAt (Path.ofText text) dump ∧
        CommandLine.settingsOf arguments world = .ok line ∧ Settings.ofProperties world properties = .ok step ∧
        Path.ofText line.exclusion = ⟨.root, dump.dropLast ++ [defaultExclusionName]⟩ ∧
        world.StandsAt (Path.ofText line.exclusion) (dump.dropLast ++ [defaultExclusionName]) ∧
        world.absolute (Path.ofText text) = .ok named ∧
        Path.ofText step.exclusion = named.parent.child defaultExclusionName ∧
        (world.StandsAt (Path.ofText step.exclusion) (dump.dropLast ++ [defaultExclusionName]) ↔
          ∃ n, world.Leads n named.parent dump.dropLast) ∧
        (world.Leads 0 (Path.ofText text) dump ∨
            ".." ∉ (Path.ofText text).parts ∧ world.isLink (Path.ofText text) = false →
          world.StandsAt (Path.ofText step.exclusion) (dump.dropLast ++ [defaultExclusionName])) := by
  have hnormal := Path.isNormal_ofText text
  have hstandsAt : ∀ (above : Path) (there : Location),
      world.StandsAt (above.child defaultExclusionName) (there ++ [defaultExclusionName]) ↔
        ∃ n, world.Leads n above there := by
    intro above there
    simp [World.StandsAt]
  by_cases hstands : (Path.ofText text).isAbsolute = true ∨ world.workingDir.removed = []
  · obtain ⟨dump, hdump⟩ := World.exists_isDirAt hstands hdir
    obtain ⟨named, hnamed⟩ := World.exists_absolute hstands
    have hresolved := World.isResolved_of_absolute hlegal hnormal hnamed
    have hreal : world.resolve (Path.ofText text) = .ok ⟨.root, dump⟩ := by
      rcases hstands with habsolute | hthere
      · exact (hdump.resolves hlegal hshort).of_isAbsolute habsolute
      · exact (hdump.resolves hlegal hshort).resolve_right fun hgone => hgone.1 hthere
    obtain ⟨line, hline, hlineExclusion⟩ := hgiven.exists_settingsOf hlegal hdump.2 hreal
    obtain ⟨step, hstep, hstepExclusion⟩ :=
      hgiven.exists_ofProperties hsaid hresolved.isNormal hresolved.isAbsolute hnamed
    have hexact := hstandsAt named.parent dump.dropLast
    refine .inr ⟨dump, line, step, named, hdump, hline, hstep, hlineExclusion, ?_, hnamed, hstepExclusion, ?_, ?_⟩
    · rw [hlineExclusion]
      exact (hstandsAt ⟨.root, dump.dropLast⟩ dump.dropLast).mpr
        ⟨0, World.leads_root hlegal (Node.hasDir_dropLast hdump.2)⟩
    · rwa [hstepExclusion]
    · rw [hstepExclusion, hexact]
      exact World.exists_leads_parent hlegal hnamed hnormal hdump
  · obtain ⟨hrelative, hremoved⟩ := not_or.mp hstands
    refine .inl ⟨by simpa using hrelative, hremoved, ?_⟩
    refine hgiven.ofProperties_eq_error hsaid ?_
    unfold World.absolute World.currentDir
    rw [if_neg hrelative, if_neg (by simpa using hremoved)]
    rfl

/-- A class dump behind two links: one leads to the directory that it is in, the other to a neighbour of it. -/
def World.withDumpBehindLinks : World where
  root := .dir
    [("classes", .dir [("K.class", .file [1])]), ("in", .link "real/sub"),
      ("real", .dir [("dump", .dir []), ("sub", .dir [])]), ("way", .link "/real")]
  workingDir := ⟨[], []⟩
  home := "/"

/-- Over the one link both defaults are the same place. Behind the other one a double dot leads to the dump, and there
the build step, which goes by the letter, has its default beside the link. -/
theorem defaultExclusion_exact_withDumpBehindLinks :
    let world := World.withDumpBehindLinks
    let arguments (text : String) : CommandLine.Arguments :=
      { classdump := .text text, classpath := [.text "/classes"] }
    let properties (text : String) :=
      [(Settings.classdumpProperty, some text), (Settings.classpathProperty, some "/classes")]
    let settings (classdump exclusion : String) : Settings :=
      { classdump := classdump, classpath := ["/classes"], exclusion := exclusion, dryRun := false }
    (CommandLine.settingsOf (arguments "/way/dump") world =
          .ok (settings "/real/dump" "/real/exclclassdump") ∧
        Settings.ofProperties world (properties "/way/dump") =
          .ok (settings "/way/dump" "/way/exclclassdump") ∧
        world.StandsAt (Path.ofText "/way/exclclassdump") ["real", "exclclassdump"]) ∧
      CommandLine.settingsOf (arguments "/in/../dump") world =
          .ok (settings "/real/dump" "/real/exclclassdump") ∧
        Settings.ofProperties world (properties "/in/../dump") =
          .ok (settings "/in/../dump" "/exclclassdump") ∧
        ¬world.StandsAt (Path.ofText "/exclclassdump") ["real", "exclclassdump"] := by
  intro world arguments properties settings
  have hlegal : world.Legal := ⟨Node.legal_of_flatten (by decide +kernel), rfl⟩
  have hgiven : ∀ text, text ≠ "" → GivenDump text (arguments text) (properties text) := by
    intro text htext
    have hentries : Classpath.splitAll ["/classes"] ≠ [] := by decide +kernel
    exact ⟨rfl, hentries, rfl, by simp [properties, Settings.property?, htext], ⟨"/classes", rfl, by decide +kernel⟩, rfl⟩
  have hdumps : world.IsDirAt (Path.ofText "/way/dump") ["real", "dump"] ∧
      world.IsDirAt (Path.ofText "/in/../dump") ["real", "dump"] :=
    ⟨⟨by decide +kernel, rfl⟩, by decide +kernel, rfl⟩
  have hline : CommandLine.settingsOf (arguments "/way/dump") world =
      .ok (settings "/real/dump" "/real/exclclassdump") := by decide +kernel
  have hstep : Settings.ofProperties world (properties "/way/dump") =
      .ok (settings "/way/dump" "/way/exclclassdump") := by decide +kernel
  have hlineUp : CommandLine.settingsOf (arguments "/in/../dump") world =
      .ok (settings "/real/dump" "/real/exclclassdump") := by decide +kernel
  have hstepUp : Settings.ofProperties world (properties "/in/../dump") =
      .ok (settings "/in/../dump" "/exclclassdump") := by decide +kernel
  refine ⟨⟨hline, hstep, ?_⟩, hlineUp, hstepUp, ?_⟩
  · obtain ⟨-, hremoved, -⟩ | ⟨dump, _, step, _, hdump, -, hfound, -, -, -, -, -, hsame⟩ :=
      defaultExclusion_exact hlegal (hgiven "/way/dump" (by decide)) (by decide) (by decide +kernel) (by decide +kernel)
    · exact absurd rfl hremoved
    · obtain rfl := hdump.unique hdumps.1
      obtain rfl := Except.ok.inj (hfound.symm.trans hstep)
      exact hsame (.inr ⟨by decide +kernel, by decide +kernel⟩)
  · obtain ⟨-, hremoved, -⟩ | ⟨dump, _, step, named, hdump, -, hfound, -, -, hnamed, -, hexact, -⟩ :=
      defaultExclusion_exact hlegal (hgiven "/in/../dump" (by decide)) (by decide) (by decide +kernel)
        (by decide +kernel)
    · exact absurd rfl hremoved
    · obtain rfl := hdump.unique hdumps.2
      obtain rfl := Except.ok.inj (hfound.symm.trans hstepUp)
      obtain rfl : named = ⟨.root, ["dump"]⟩ := by
        have habsolute : world.absolute (Path.ofText "/in/../dump") = .ok ⟨.root, ["dump"]⟩ := by decide +kernel
        exact Except.ok.inj (hnamed.symm.trans habsolute)
      intro hstands
      obtain ⟨n, hleads⟩ := hexact.mp hstands
      have hroot : world.Leads 0 ⟨.root, []⟩ [] := World.leads_root hlegal rfl
      cases (hleads.unique hroot).2

end ClassDump
