import ClassDump.Proofs.Pipeline.Announced
import ClassDump.Proofs.Reference.Readable

/-! A healthy build is consistent. Where nothing below the directories of a classpath is a link and neither the system
nor an archive fails, every class that stands in one of the directories is read back along the whole classpath, by
whatever names it goes. So the pipeline never ends because of a class that cannot be read. -/

namespace ClassDump

open Classpath

namespace Reference

variable {world : World} {entries : List Path} {root entry : Path} {relative : Location} {resource : String}

/-- A look-up of the resource comes to the entry: none before it has the resource. -/
def Consulted (world : World) (entries : List Path) (resource : String) (entry : Path) : Prop :=
  ∃ before after, entries = before ++ entry :: after ∧ ∀ other ∈ before, answerOf world resource other = .ok none

/-- A classpath whose directories have no links and no classes that are special files, and on which nothing fails when a
class of one of them is looked up: the system says what it is asked and reads the files, and an archive has the class or
misses it. -/
structure Healthy (world : World) (entries : List Path) : Prop where
  asked : ∀ entry ∈ entries, ∃ isDir, world.isDir entry = .ok isDir
  noLink : ∀ entry ∈ entries, ∀ there, world.IsDirAt entry there →
    ∀ relative node, world.root.bare? (there ++ relative) = some node → node.isLink = false
  noSpecial : ∀ entry ∈ entries, ∀ there, world.IsDirAt entry there →
    ∀ relative, isClassFile (entry.descend relative) = true → world.root.bare? (there ++ relative) ≠ some .special
  files : ∀ root ∈ entries, ∀ relative, IsClassBelow world root relative →
    ∀ entry, Consulted world entries (Path.mk .here relative).text entry → world.isDir entry = .ok true →
      ∃ isFile, world.isFile (entry.descend relative) = .ok isFile ∧
        (isFile = true → ∃ data, world.readFile (entry.descend relative) = .ok data)
  archives : ∀ root ∈ entries, ∀ relative, IsClassBelow world root relative →
    ∀ entry, Consulted world entries (Path.mk .here relative).text entry → world.isDir entry = .ok false →
      Lookup.isArchiveName entry = true → ∃ found, answerOf world (Path.mk .here relative).text entry = .ok found

/-- A directory has a resource or misses it if the system answers for the file. -/
theorem exists_answerOf_of_files (hdir : world.isDir entry = .ok true) :
    (∃ found, answerOf world resource entry = .ok found) ↔
      ∃ isFile, world.isFile (entry.below (Text.splitAt '/' resource)) = .ok isFile ∧
        (isFile = true → ∃ data, world.readFile (entry.below (Text.splitAt '/' resource)) = .ok data) := by
  unfold answerOf
  rw [hdir]
  dsimp only
  cases world.isFile (entry.below (Text.splitAt '/' resource)) with
  | error error => simp
  | ok isFile =>
      cases isFile with
      | false => simp
      | true =>
          cases world.readFile (entry.below (Text.splitAt '/' resource)) with
          | error error => simp [Except.map, Except.mapError]
          | ok data => simp [Except.map, Except.mapError]

/-- The relative path of a class is cut into its names again, so a directory is asked for the path of the class in it. -/
theorem below_splitAt_text (hlegal : world.Legal) (hclass : IsClassBelow world root relative) (entry : Path) :
    entry.below (Text.splitAt '/' (Path.mk .here relative).text) = entry.descend relative := by
  have hne := hclass.ne_nil
  obtain ⟨there, node, -, -, hbare, -⟩ := hclass
  have hnames := hlegal.names hbare
  rw [Path.splitAt_text_names hne hnames, Path.below_eq_descend entry hnames]

namespace Healthy

variable (h : Healthy world entries) (hlegal : world.Legal) (hroot : root ∈ entries)
  (hclass : IsClassBelow world root relative)
include h hlegal hroot hclass

theorem answers : Answers world (Path.mk .here relative).text entries := by
  intro before entry after hentries hbefore
  have hconsulted : Consulted world entries (Path.mk .here relative).text entry := ⟨before, after, hentries, hbefore⟩
  obtain ⟨isDir, hdir⟩ := h.asked entry (by simp [hentries])
  cases isDir with
  | true =>
      rw [exists_answerOf_of_files hdir, below_splitAt_text hlegal hclass]
      exact h.files root hroot relative hclass entry hconsulted hdir
  | false =>
      by_cases hname : Lookup.isArchiveName entry = true
      · exact h.archives root hroot relative hclass entry hconsulted hdir hname
      · exact ⟨none, answerOf_of_not_isArchiveName hdir hname⟩

/-- Every class is found, in its own directory or in an entry before it. -/
theorem exists_data (hnul : root.hasNul = false) :
    ∃ data, firstAnswer world (Path.mk .here relative).text entries = .ok (some data) :=
  exists_data_of_answers hlegal hroot hnul (fun there node hthere => h.noLink root hroot there hthere relative node)
    (fun there hthere => h.noSpecial root hroot there hthere relative hclass.isClassFile) hclass
    (h.answers hlegal hroot hclass)

end Healthy

/-- A classpath that can be read is healthy. -/
theorem Readable.healthy (h : Readable world entries) (hlegal : world.Legal) : Healthy world entries where
  asked := h.asked
  noLink := h.noLink
  noSpecial := h.noSpecial
  files := by
    rintro root hroot relative hclass entry ⟨before, after, hentries, hbefore⟩ hdir
    have hanswer := h.answers root hroot relative hclass before entry after hentries hbefore
    rwa [exists_answerOf_of_files hdir, below_splitAt_text hlegal hclass] at hanswer
  archives := by
    rintro root hroot relative hclass entry ⟨before, after, hentries, hbefore⟩ - -
    exact h.answers root hroot relative hclass before entry after hentries hbefore

/-- A class for which bytes are found is not reported as one that cannot be read. -/
theorem keyAt_ne_consistency {classId : Bytes → Int} {answer : String → Except Failure (Option Bytes)} {data : Bytes}
    (h : answer (Path.mk .here relative).text = .ok (some data)) (name detail : String) :
    keyAt classId answer relative ≠ .error (.consistency name detail) := by
  unfold keyAt
  rw [h, keyBy]
  cases ClassKey.of (binaryNameOf (Path.mk .here relative).text) (classId data) <;> rintro ⟨⟩

end Reference

namespace Pipeline

variable {world before : World} {settings : Settings} {name detail : String}

theorem not_escapes_consistency : ¬Escapes world settings (.consistency name detail) := by
  intro h
  cases h with
  | reference entries root failure hentries hroot hdir hcause => cases hcause

/-- The reference set is the only stage that reports a class that cannot be read: one below a directory of the
classpath. -/
theorem exists_keyAt_of_execute (hlegal : world.Legal) {command : Command} {progress : Bool}
    (h : (command.execute settings progress world).1 = .error (.consistency name detail)) :
    ∃ entries root relative, resolveEntries world (settings.classpath.map .text) = .ok entries ∧ root ∈ entries ∧
      world.isDir root = .ok true ∧ relative ∈ Reference.classesBelow world root ∧
      Reference.keyAt Reference.agentId (fun resource => firstAnswer world resource entries) relative =
        .error (.consistency name detail) := by
  have hstages := execute_stages command settings progress world
  generalize command.execute settings progress world = ended at h hstages
  cases hstages with
  | unresolved hstart hresolve hresolved =>
      cases h
      have hcases := @configuration_or_roots_of_resolveClasspath _ _ settings hlegal hstart
      rw [hresolve] at hcases
      rcases hcases with ⟨_, ⟨⟩, ⟨error, ⟨⟩⟩ | hcause⟩ | ⟨_, _, ⟨⟩, -⟩
      exact absurd hcause not_escapes_consistency
  | unpruned hresolved hbuild hbuilt hrun =>
      cases h
      rcases configuration_or_escapes_of_reconcile hbuilt (congrArg Prod.fst hrun) with ⟨error, ⟨⟩⟩ | hcause
      exact absurd hcause not_escapes_consistency
  | pruned hresolved hbuild hbuilt hrun => cases h
  | @unbuilt entries roots resolved built failure hresolved hbuild hbuilt =>
      cases h
      obtain ⟨hentries, hroots⟩ := hresolved.entries_and_roots hlegal
      have hfree : ∀ root ∈ roots.map (·.path), root.hasNul = false :=
        List.forall_mem_map.mpr fun root hroot => World.hasNul_of_isDir (hroots root hroot).2
      have hset := @Reference.build_along_fst world resolved (roots.map (·.path)) entries progress
        hresolved.silent hfree
      unfold buildReferenceSet at hbuild
      split at hbuild
      · next heq =>
        cases hbuild
        rw [heq] at hset
        rcases Reference.error_of_setOf hset.symm with ⟨⟨⟩, -⟩ | ⟨relative, hrelative, hkey⟩
        obtain ⟨path, hpath, hbelow⟩ := List.mem_flatMap.mp hrelative
        obtain ⟨root, hroot, rfl⟩ := List.mem_map.mp hpath
        exact ⟨entries, root.path, relative, hentries, (hroots root hroot).1, (hroots root hroot).2, hbelow, hkey⟩
      · cases hbuild

/-- With a healthy classpath a run never ends because of a class that cannot be read, and at any time of the scan every
class below one of the roots is read back along the entries. -/
theorem consistent_of_healthy (hlegal : world.Legal) (settings : Settings)
    (hhealthy : ∀ entries, resolveEntries world (settings.classpath.map .text) = .ok entries →
      Reference.Healthy world entries) :
    (∀ (command : Command) (progress : Bool) (name detail : String),
      (command.execute settings progress world).1 ≠ .error (.consistency name detail)) ∧
    ∀ entries roots, (resolveClasspath settings world).1 = .ok (entries, roots) →
      ∀ root ∈ roots, ∀ relative, Reference.IsClassBelow world root.path relative →
        ∀ source now, (Lookup.along entries).Onward world source → now.silent = world.silent →
          ∃ data, (source.readResource now (Path.mk .here relative).text).1 = .ok (some data) := by
  constructor
  · intro command progress name detail h
    obtain ⟨entries, root, relative, hentries, hroot, hdir, hrelative, hkey⟩ := exists_keyAt_of_execute hlegal h
    have hnul := World.hasNul_of_isDir hdir
    have hclass := ((Reference.mem_classesBelow_iff hlegal hnul).mp hrelative).1.1
    obtain ⟨data, hdata⟩ := (hhealthy entries hentries).exists_data hlegal hroot hclass hnul
    exact Reference.keyAt_ne_consistency hdata name detail hkey
  · intro entries roots hresolve root hroot relative hclass source now hsource hnow
    rcases @configuration_or_roots_of_resolveClasspath _ _ settings hlegal (Eq.refl world.silent) with
      ⟨failure, hfailure, -⟩ | ⟨_, _, hok, hentries, hroots⟩
    · rw [hresolve] at hfailure
      cases hfailure
    · rw [hresolve] at hok
      cases hok
      obtain ⟨hmem, hdir⟩ := hroots root hroot
      obtain ⟨data, hdata⟩ := (hhealthy entries hentries).exists_data hlegal hmem hclass (World.hasNul_of_isDir hdir)
      obtain ⟨later, after, hread, -⟩ :=
        @Reference.exists_answer world now entries false source (Path.mk .here relative).text hnow hsource
      exact ⟨data, (congrArg Prod.fst hread).trans hdata⟩

/-- A class in a directory with a dot in its name, itself with a dollar sign, a space and the ending twice; before it on
the classpath a file that is no archive and an empty directory. -/
def withDottedNames : World where
  root := .dir
    [("lib.jar", .file [1]), ("generated", .dir []), ("classes", .dir [("a.b", .dir [("K$1 x.class.class", .file [2])])]),
      ("dump", .dir [])]
  workingDir := ⟨[], []⟩
  home := "/"

/-- The class is read back, and the run does not end because of it. -/
theorem consistent_withDottedNames :
    let settings : Settings := ⟨"dump", ["lib.jar", "generated", "classes"], "aside", false⟩
    (∀ name detail, (({} : Command).execute settings false withDottedNames).1 ≠ .error (.consistency name detail)) ∧
      ∃ entries data, ((Lookup.along entries).readResource withDottedNames "a.b/K$1 x.class.class").1 =
        .ok (some data) := by
  intro settings
  let entries : List Path := [⟨.root, ["lib.jar"]⟩, ⟨.root, ["generated"]⟩, ⟨.root, ["classes"]⟩]
  let dirs : List (Path × Location) := [(⟨.root, ["generated"]⟩, ["generated"]), (⟨.root, ["classes"]⟩, ["classes"])]
  have hlegal : withDottedNames.Legal := ⟨Node.legal_of_flatten (by decide +kernel), rfl⟩
  have hdirs : ∀ dir ∈ dirs, withDottedNames.IsDirAt dir.1 dir.2 :=
    List.forall_mem_cons.mpr ⟨⟨by decide +kernel, rfl⟩, List.forall_mem_singleton.mpr ⟨by decide +kernel, rfl⟩⟩
  have hreadable : Reference.Readable withDottedNames entries :=
    Reference.readable_of_flatten hdirs (by decide +kernel) (by decide +kernel)
  have hentries : resolveEntries withDottedNames (settings.classpath.map .text) = .ok entries := by decide +kernel
  have hroots : (resolveClasspath settings withDottedNames).1 =
      .ok (entries, [⟨⟨.root, ["generated"]⟩, 1⟩, ⟨⟨.root, ["classes"]⟩, 2⟩]) := by decide +kernel
  have hclass : Reference.IsClassBelow withDottedNames ⟨.root, ["classes"]⟩ ["a.b", "K$1 x.class.class"] :=
    ⟨["classes"], .file [2], hdirs _ (List.mem_cons_of_mem _ List.mem_cons_self), rfl, rfl, by decide +kernel⟩
  have htext : (Path.mk .here ["a.b", "K$1 x.class.class"]).text = "a.b/K$1 x.class.class" := by decide
  obtain ⟨hnever, hread⟩ := consistent_of_healthy hlegal settings fun found hfound => by
    rw [hentries] at hfound
    cases hfound
    exact hreadable.healthy hlegal
  obtain ⟨data, hdata⟩ := hread entries _ hroots _ (List.mem_cons_of_mem _ List.mem_cons_self) _ hclass
    (.along entries) withDottedNames (.refl (Lookup.sound_along _ _)) rfl
  rw [htext] at hdata
  exact ⟨fun name detail => hnever {} false name detail, entries, data, hdata⟩

/-- A local build whose one class is a special file, and an empty dump. -/
def specialBuild : World where
  root := .dir [("classes", .dir [("K.class", .special)]), ("dump", .dir [])]
  workingDir := ⟨[], []⟩
  home := "/"

theorem noLink_specialBuild (location : Location) (goal : String) :
    specialBuild.root.bare? location ≠ some (.link goal) := by
  intro hbare
  cases @Node.forall_of_flatten specialBuild.root (fun _ node => node.isLink = false) (by decide +kernel) _ _ hbare

/-- A special file has no bytes to be read back: a run that nothing else is wrong with ends because of it. -/
theorem inconsistent_specialBuild :
    let settings : Settings := ⟨"dump", ["classes"], "aside", false⟩
    specialBuild.Legal ∧ specialBuild.faults = {} ∧
      resolveEntries specialBuild (settings.classpath.map .text) = .ok [⟨.root, ["classes"]⟩] ∧
      specialBuild.IsDirAt ⟨.root, ["classes"]⟩ ["classes"] ∧
      (∀ location goal, specialBuild.root.bare? location ≠ some (.link goal)) ∧
      (({} : Command).execute settings false specialBuild).1 =
        .error (.consistency "K" "no classpath entry provides it") :=
  ⟨⟨Node.legal_of_flatten (by decide +kernel), rfl⟩, rfl, by decide +kernel, ⟨by decide +kernel, rfl⟩,
    noLink_specialBuild, by decide +kernel⟩

end Pipeline
end ClassDump
