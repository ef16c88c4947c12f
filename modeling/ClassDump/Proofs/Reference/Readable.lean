import ClassDump.Proofs.Reference.Exact

/-! A classpath that can be read. Each of its directories can be gone through, and the look-up of a class that stands in
one of them meets no failure; so the class is found, there or in an entry before it, and the reference set has the keys
of exactly these classes. -/

namespace ClassDump

open Classpath

namespace Reference

variable {world : World} {entries : List Path} {root : Path} {there : Location} {relative : Location}

section Plain

variable {node : Node} (hlegal : world.Legal) (hlocated : world.IsDirAt root there) (hnode : node.isDir = false)
  (hbare : world.root.bare? (there ++ relative) = some node) (hlink : node.isLink = false)
include hlegal hlocated hnode hbare hlink

/-- What stands in a directory without links is found by its path, if that is short enough. -/
theorem stat_descend : world.stat (root.descend relative) =
    if pathMax ≤ (root.descend relative).byteLength then .error .nameTooLong else .ok node := by
  have hnames := hlegal.names hbare
  obtain ⟨n, hn, hleads, -⟩ := World.exists_leads_of_locateFrom hlocated.1
  have hstat := (hleads.descend (Node.reach_names (fun name hname => (hnames name hname).isName) hbare hlink)).stat
  rwa [(Node.bare?_eq_some_iff hnode).mp hbare, Nat.add_zero, if_pos hn] at hstat

/-- What is no special file is taken for a file, if its path is not refused. -/
theorem isFile_ne_false (hspecial : node.isSpecial = false) (hnul : root.hasNul = false) :
    world.isFile (root.descend relative) ≠ .ok false := by
  have hstat := stat_descend hlegal hlocated hnode hbare hlink
  have hfree := Path.hasNul_descend hnul (hlegal.names hbare)
  have hfile : node.isFile = true := by
    cases node with
    | file data => rfl
    | dir entries => cases hnode
    | link target => cases hlink
    | special => cases hspecial
  intro hmissed
  split at hstat
  · unfold World.isFile World.ask at hmissed
    rw [hfree, hstat] at hmissed
    cases hmissed
  · rw [World.isFile, World.ask_of_stat hfree hstat, hfile] at hmissed
    cases hmissed

theorem isDir_ne_true : world.isDir (root.descend relative) ≠ .ok true := by
  intro hdir
  obtain ⟨-, found, hfound, hisDir⟩ := World.ask_eq_true hdir
  rw [stat_descend hlegal hlocated hnode hbare hlink] at hfound
  split at hfound
  · cases hfound
  · cases hfound
    rw [hnode] at hisDir
    cases hisDir

end Plain

/-- A class directory that can be gone through: it has no links, its directories can be listed, and each of its classes
is found along the classpath and has a key. -/
structure Sourced (world : World) (entries : List Path) (root : Path) (there : Location) : Prop where
  located : world.IsDirAt root there
  isNormal : root.IsNormal
  noNul : root.hasNul = false
  noLink : ∀ relative node, world.root.bare? (there ++ relative) = some node → node.isLink = false
  listed : ∀ relative, world.root.HasDir (there ++ relative) →
    world.faults.list.lookup ((Walk.Place.ofPath root).descend relative).text = none ∧
      ((Walk.Place.ofPath root).descend relative).text.utf8ByteSize < pathMax
  answered : ∀ relative, IsClassBelow world root relative → ∃ key, IsKeyAt world entries relative key
  named : ¬IsClassBelow world root [classSuffix]

namespace Sourced

variable (h : Sourced world entries root there) (hlegal : world.Legal)
include h hlegal

theorem listable : Listable world root := by
  refine ⟨h.noNul, fun other relative hother hdir => ?_⟩
  obtain rfl := h.located.unique hother
  have hnames := hlegal.names hdir
  have hspelled := ((Walk.Place.spelled_ofPath h.isNormal).descend hnames).length
  rw [Walk.Place.path_descend_ofPath] at hspelled
  obtain ⟨n, hn, hleads, -⟩ := World.exists_leads_of_locateFrom h.located.1
  obtain ⟨hfault, hshort⟩ := h.listed relative hdir
  have hplain : ∀ name node, world.root.bare? (there ++ relative ++ [name]) = some node → node.isLink = false := by
    intro name node hbare
    rw [List.append_assoc] at hbare
    exact h.noLink _ _ hbare
  obtain ⟨listed, hlist, -⟩ := Walk.exists_list_of_plain
    (hleads.descend_names (fun name hname => (hnames name hname).isName) hdir) hn hfault hspelled hshort hdir hplain
  exact Walk.not_unlisted hlist

/-- The scan comes to every class file. -/
theorem mem_classesBelow_iff : relative ∈ classesBelow world root ↔ IsClassBelow world root relative := by
  rw [((h.listable hlegal).isScanOrder hlegal).mem_iff, IsLocalClass, and_iff_left_of_imp]
  rintro ⟨other, node, hother, hnode, hbare, -⟩
  obtain rfl := h.located.unique hother
  exact isDir_ne_true hlegal hother hnode hbare (h.noLink _ _ hbare)

theorem keyAt_eq_ok_iff (hclass : IsClassBelow world root relative) {key : String} :
    keyAt agentId (fun resource => firstAnswer world resource entries) relative = .ok ⟨key⟩ ↔
      IsKeyAt world entries relative key := by
  rw [keyAt_eq_ok_iff_isKeyAt hlegal hclass, and_iff_right]
  rintro rfl
  exact h.named hclass

end Sourced

/-- The reference set of class directories that can be gone through has the keys of exactly the classes in them. -/
theorem exists_build {base world : World} {entries roots : List Path} {progress : Bool} (hlegal : base.Legal)
    (hroots : ∀ root ∈ roots, ∃ there, Sourced base entries root there)
    (hsome : ∃ root ∈ roots, ∃ relative, IsClassBelow base root relative) (hworld : world.silent = base.silent) :
    ∃ references source after,
      build (Pipeline.referenceTask progress) roots (.along entries) world = (.ok references, source, after) ∧
      ∀ key, references.contains key = true ↔ ∃ root ∈ roots, IsKeyBelow base entries root key := by
  have hmem : ∀ relative, relative ∈ roots.flatMap (classesBelow base) ↔
      ∃ root ∈ roots, IsClassBelow base root relative := by
    intro relative
    rw [List.mem_flatMap]
    refine exists_congr fun root => and_congr_right fun hroot => ?_
    obtain ⟨there, hsourced⟩ := hroots root hroot
    exact hsourced.mem_classesBelow_iff hlegal
  have hkey : ∀ root ∈ roots, ∀ relative, IsClassBelow base root relative → ∀ key,
      keyAt agentId (fun resource => firstAnswer base resource entries) relative = .ok ⟨key⟩ ↔
        IsKeyAt base entries relative key := by
    intro root hroot relative hclass key
    obtain ⟨there, hsourced⟩ := hroots root hroot
    exact hsourced.keyAt_eq_ok_iff hlegal hclass
  have hne : roots.flatMap (classesBelow base) ≠ [] := by
    obtain ⟨root, hroot, relative, hclass⟩ := hsome
    exact List.ne_nil_of_mem ((hmem relative).mpr ⟨root, hroot, hclass⟩)
  obtain ⟨references, hreferences⟩ := @exists_setOf _
      (keyAt agentId fun resource => firstAnswer base resource entries) hne <| by
    intro relative hrelative
    obtain ⟨root, hroot, hclass⟩ := (hmem relative).mp hrelative
    obtain ⟨there, hsourced⟩ := hroots root hroot
    obtain ⟨key, hat⟩ := hsourced.answered relative hclass
    exact ⟨⟨key⟩, (hkey root hroot relative hclass key).mpr hat⟩
  have hbuild := @build_along_fst base world roots entries progress hworld fun root hroot => by
    obtain ⟨there, hsourced⟩ := hroots root hroot
    exact hsourced.noNul
  rw [hreferences] at hbuild
  refine ⟨references, _, _, Prod.ext hbuild rfl, fun key => ?_⟩
  rw [(contains_of_setOf hreferences).2]
  constructor
  · rintro ⟨relative, hrelative, hok⟩
    obtain ⟨root, hroot, hclass⟩ := (hmem relative).mp hrelative
    exact ⟨root, hroot, relative, hclass, (hkey root hroot relative hclass key).mp hok⟩
  · rintro ⟨root, hroot, relative, hclass, hat⟩
    exact ⟨relative, (hmem relative).mpr ⟨root, hroot, hclass⟩, (hkey root hroot relative hclass key).mpr hat⟩

/-- A class that stands in an entry is found, there or in an entry before it, if no entry fails. -/
theorem exists_data_of_answers (hlegal : world.Legal) (hroot : root ∈ entries) (hnul : root.hasNul = false)
    (hlink : ∀ there node, world.IsDirAt root there → world.root.bare? (there ++ relative) = some node →
      node.isLink = false)
    (hspecial : ∀ there, world.IsDirAt root there → world.root.bare? (there ++ relative) ≠ some .special)
    (hclass : IsClassBelow world root relative) (hanswers : Answers world (Path.mk .here relative).text entries) :
    ∃ data, firstAnswer world (Path.mk .here relative).text entries = .ok (some data) := by
  obtain ⟨found, hfound, hmiss⟩ := exists_firstAnswer hanswers
  cases found with
  | some data => exact ⟨data, hfound⟩
  | none =>
      -- the entry itself has it, so it cannot be missed
      have hne := hclass.ne_nil
      obtain ⟨there, node, hlocated, hnode, hbare, -⟩ := hclass
      have hnames := hlegal.names hbare
      have hplain : node.isSpecial = false := by
        rw [← Bool.not_eq_true, Node.isSpecial_iff]
        rintro rfl
        exact hspecial there hlocated hbare
      have hfile := isFile_ne_false hlegal hlocated hnode hbare (hlink there node hlocated hbare) hplain hnul
      rw [← Path.below_eq_descend root hnames, ← Path.splitAt_text_names hne hnames] at hfile
      exact absurd (hmiss rfl root hroot) (answerOf_ne_none (hlocated.isDir hnul) hfile)

/-- The directories of a classpath can be gone through, and no look-up of a class in them fails: no link and no special
class file is below them, their paths are short enough, no class is named by the ending alone, and whoever is asked for
a class has it or misses it. -/
structure Readable (world : World) (entries : List Path) : Prop where
  asked : ∀ entry ∈ entries, ∃ isDir, world.isDir entry = .ok isDir
  noLink : ∀ entry ∈ entries, ∀ there, world.IsDirAt entry there →
    ∀ relative node, world.root.bare? (there ++ relative) = some node → node.isLink = false
  noSpecial : ∀ entry ∈ entries, ∀ there, world.IsDirAt entry there →
    ∀ relative, isClassFile (entry.descend relative) = true → world.root.bare? (there ++ relative) ≠ some .special
  short : ∀ entry ∈ entries, ∀ there, world.IsDirAt entry there →
    ∀ relative, world.root.HasDir (there ++ relative) →
      ((Walk.Place.ofPath entry).descend relative).text.utf8ByteSize < pathMax
  answers : ∀ entry ∈ entries, ∀ relative, IsClassBelow world entry relative →
    Answers world (Path.mk .here relative).text entries
  named : ∀ entry ∈ entries, ¬IsClassBelow world entry [classSuffix]

/-- A classpath is readable if nothing in its directories is a link, all paths there are short enough, every class there
is a file, and every entry answers for it. -/
theorem readable_of_flatten {dirs : List (Path × Location)} (hdirs : ∀ dir ∈ dirs, world.IsDirAt dir.1 dir.2)
    (hentries : ∀ entry ∈ entries, entry.hasNul = false ∧ (entry ∈ dirs.map (·.1) ∨ world.isDir entry = .ok false))
    (h : ∀ dir ∈ dirs, ∀ found ∈ world.root.flatten [], dir.2 <+: found.1 → found.2.bare.isLink = false ∧
      ((Walk.Place.ofPath dir.1).descend (found.1.drop dir.2.length)).text.utf8ByteSize < pathMax ∧
      (isClassFile (dir.1.descend (found.1.drop dir.2.length)) = true → found.2.bare.isDir = false →
        found.1.drop dir.2.length ≠ [classSuffix] ∧ found.2.bare.isSpecial = false ∧
        ∀ entry ∈ entries, (answerOf world (Path.mk .here (found.1.drop dir.2.length)).text entry).toBool = true)) :
    Readable world entries := by
  have hall : ∀ entry ∈ entries, ∀ there, world.IsDirAt entry there → ∀ relative node,
      world.root.bare? (there ++ relative) = some node → node.isLink = false ∧
        ((Walk.Place.ofPath entry).descend relative).text.utf8ByteSize < pathMax ∧
        (isClassFile (entry.descend relative) = true → node.isDir = false → relative ≠ [classSuffix] ∧
          node.isSpecial = false ∧
          ∀ other ∈ entries, (answerOf world (Path.mk .here relative).text other).toBool = true) := by
    intro entry hentry there hthere relative node hbare
    obtain ⟨hnul, hdir | hdir⟩ := hentries entry hentry
    · obtain ⟨⟨path, place⟩, hmem, rfl⟩ := List.mem_map.mp hdir
      obtain rfl := (hdirs _ hmem).unique hthere
      have hfound := @Node.forall_of_flatten world.root (fun location node => place <+: location → node.isLink = false ∧
        ((Walk.Place.ofPath path).descend (location.drop place.length)).text.utf8ByteSize < pathMax ∧
        (isClassFile (path.descend (location.drop place.length)) = true → node.isDir = false →
          location.drop place.length ≠ [classSuffix] ∧ node.isSpecial = false ∧
          ∀ other ∈ entries, (answerOf world (Path.mk .here (location.drop place.length)).text other).toBool = true))
        (h _ hmem) _ _ hbare (List.prefix_append _ _)
      rwa [List.drop_left] at hfound
    · rw [hthere.isDir hnul] at hdir
      cases hdir
  constructor
  case asked =>
    intro entry hentry
    obtain ⟨hnul, hdir | hdir⟩ := hentries entry hentry
    · obtain ⟨dir, hmem, rfl⟩ := List.mem_map.mp hdir
      exact ⟨true, (hdirs dir hmem).isDir hnul⟩
    · exact ⟨false, hdir⟩
  case noLink => exact fun entry hentry there hthere relative node hbare => (hall entry hentry there hthere _ _ hbare).1
  case noSpecial =>
    intro entry hentry there hthere relative hclass hbare
    cases ((hall entry hentry there hthere _ _ hbare).2.2 hclass rfl).2.1
  case short => exact fun entry hentry there hthere relative hbare => (hall entry hentry there hthere _ _ hbare).2.1
  case answers =>
    rintro entry hentry relative ⟨there, node, hthere, hnode, hbare, hclass⟩
    refine answers_of_forall fun other hother => ?_
    have hanswer := ((hall entry hentry there hthere _ _ hbare).2.2 hclass hnode).2.2 other hother
    cases hfound : answerOf world (Path.mk .here relative).text other with
    | ok found => exact ⟨found, rfl⟩
    | error failure =>
        rw [hfound] at hanswer
        cases hanswer
  case named =>
    rintro entry hentry ⟨there, node, hthere, hnode, hbare, hclass⟩
    exact ((hall entry hentry there hthere _ _ hbare).2.2 hclass hnode).1 rfl

/-- A class that stands in an entry has a key, by the first entry that has it. -/
theorem Readable.exists_isKeyAt (h : Readable world entries) (hlegal : world.Legal) (hroot : root ∈ entries)
    (hnul : root.hasNul = false) (hclass : IsClassBelow world root relative) :
    ∃ key, IsKeyAt world entries relative key := by
  obtain ⟨data, hdata⟩ := exists_data_of_answers hlegal hroot hnul
    (fun there node hthere => h.noLink root hroot there hthere relative node)
    (fun there hthere => h.noSpecial root hroot there hthere relative hclass.isClassFile) hclass
    (h.answers root hroot relative hclass)
  exact ⟨_, data, hdata, rfl⟩

/-- Each directory of a readable classpath can be scanned for classes. -/
theorem Readable.exists_sourced (h : Readable world entries) (hlegal : world.Legal) (hfaults : world.faults.list = [])
    (hroot : root ∈ entries) (hresolved : root.IsResolved) (hnul : root.hasNul = false)
    (hdir : world.isDir root = .ok true) : ∃ there, Sourced world entries root there := by
  obtain ⟨there, hlocated⟩ := World.exists_isDirAt (.inl hresolved.isAbsolute) hdir
  refine ⟨there, hlocated, hresolved.isNormal, hnul, h.noLink root hroot there hlocated, fun relative hbelow => ?_,
    fun relative hclass => h.exists_isKeyAt hlegal hroot hnul hclass, h.named root hroot⟩
  rw [hfaults]
  exact ⟨rfl, h.short root hroot there hlocated relative hbelow⟩

end Reference
end ClassDump
