import ClassDump.Classpath.Lookup
import ClassDump.Proofs.ClassKey.Decoding
import ClassDump.Reference

/-! Names of classes and paths of their files. A binary name whose segments say something is got back from the file that
it leads to. Going the other way, the path of a class file is got back from its binary name unless there is a dot in
front of the ending, for which the name has no sign of its own; its key is then the path with the identity in front of
the ending. -/

namespace ClassDump

variable {name stem : String} {file root relative : Path}

theorem slash_not_mem_classSuffix : '/' ∉ classSuffix.toList := by decide

theorem binaryNameOf_append (stem : String) : binaryNameOf (stem ++ classSuffix) = Text.replace '/' '.' stem := by
  have hends : Text.endsWith (stem ++ classSuffix) classSuffix = true := Text.endsWith_append stem (by decide)
  rw [binaryNameOf, if_pos hends, Text.dropLast_append stem String.length_toList]

theorem binaryName_of_relativeTo? (h : file.relativeTo? root = some relative) :
    binaryName file root = .ok (binaryNameOf relative.text) := by
  rw [binaryName, h]

/-- A name is got back from its resource if it has no slash. -/
theorem binaryNameOf_resourceName (hslash : '/' ∉ name.toList) : binaryNameOf (resourceName name) = name := by
  rw [resourceName, binaryNameOf_append, Text.replace_replace hslash]

/-- The resource of a binary name is a path whose components all say something. -/
theorem isProper_of_mem_splitAt_resourceName (hslash : '/' ∉ name.toList)
    (hsegments : ∀ segment ∈ Text.splitAt '.' name, segment ≠ "") {component : String}
    (h : component ∈ Text.splitAt '/' (resourceName name)) : Path.isProper component = true := by
  obtain ⟨front, last, hname, hresource⟩ :=
    Text.exists_splitAt_append slash_not_mem_classSuffix (Text.replace '.' '/' name)
  rw [Text.splitAt_replace hslash] at hname
  rw [resourceName, hresource] at h
  rcases List.mem_append.mp h with hfront | hlast
  · have hsegment : component ∈ Text.splitAt '.' name := hname ▸ List.mem_append_left _ hfront
    have hdot := Text.not_mem_of_mem_splitAt hsegment
    have hne : component ≠ "." := by
      rintro rfl
      exact hdot List.mem_cons_self
    simp [Path.isProper, hsegments component hsegment, hne]
  · obtain rfl := List.mem_singleton.mp hlast
    -- the ending alone is longer than a dot
    have hlength : 6 ≤ (last ++ classSuffix).length := by
      rw [String.length_append]
      exact Nat.le_add_left 6 last.length
    have hne : ∀ short : String, short.length ≤ 1 → last ++ classSuffix ≠ short := by
      rintro short hshort rfl
      omega
    simp [Path.isProper, hne "" (by decide), hne "." (by decide)]

theorem Path.text_splitAt {text : String} (h : text ≠ "") : (Path.mk .here (Text.splitAt '/' text)).text = text := by
  have hwritten : Anchor.here.text ++ "/".intercalate (Text.splitAt '/' text) = text := by
    rw [Text.intercalate_splitAt Text.toList_slash]
    exact String.empty_append
  rw [Path.text]
  dsimp only
  rw [hwritten, if_neg h]

/-- A binary name without slashes whose segments say something is that of the file that it leads to. -/
theorem binaryName_below (root : Path) (hslash : '/' ∉ name.toList)
    (hsegments : ∀ segment ∈ Text.splitAt '.' name, segment ≠ "") :
    binaryName (root.below (Text.splitAt '/' (resourceName name))) root = .ok name := by
  have hproper : (Text.splitAt '/' (resourceName name)).filter Path.isProper = Text.splitAt '/' (resourceName name) :=
    List.filter_eq_self.mpr fun _ => isProper_of_mem_splitAt_resourceName hslash hsegments
  have hne : resourceName name ≠ "" := by
    rw [resourceName, Ne, String.append_eq_empty_iff]
    exact fun h => absurd h.2 (by decide)
  rw [binaryName_of_relativeTo? (Path.relativeTo?_below root _), hproper, Path.text_splitAt hne,
    binaryNameOf_resourceName hslash]

/-- The resource of a class file's binary name is its path just if no dot is in front of the ending. -/
theorem resourceName_binaryNameOf_iff :
    resourceName (binaryNameOf (stem ++ classSuffix)) = stem ++ classSuffix ↔ '.' ∉ stem.toList := by
  rw [binaryNameOf_append, resourceName, Text.replace_dot_replace_slash, String.append_left_inj,
    Text.replace_eq_self_iff (by decide)]

/-- The key of a class file without dots in front of the ending is its path with the identity there. -/
theorem of_binaryNameOf_append (hdot : '.' ∉ stem.toList) (hne : stem ≠ "") {id : Int}
    (hid : 0 ≤ id ∧ id < ClassKey.idCount) :
    ClassKey.of (binaryNameOf (stem ++ classSuffix)) id = .ok ⟨stem ++ "." ++ Text.hex16 id ++ classSuffix⟩ := by
  have hname : Text.replace '/' '.' stem ≠ "" := fun h => hne (Text.replace_eq_empty_iff.mp h)
  rw [binaryNameOf_append, ClassKey.of_eq_ok hname hid, Text.replace_dot_replace_slash, Text.replace_of_not_mem hdot]

/-- Binary names and the paths of class files are inverse to each other where they can be: for names whose segments say
something, and for paths without a dot in front of the ending. The look-up by such a name is the one by the path, and the
key is the path with the identity in front of the ending. -/
theorem binaryName_inverse (root : Path) :
    (∀ name : String, '/' ∉ name.toList → (∀ segment ∈ Text.splitAt '.' name, segment ≠ "") →
      binaryName (root.below (Text.splitAt '/' (resourceName name))) root = .ok name) ∧
    ∀ (file relative : Path) (stem : String), file.relativeTo? root = some relative → relative.text = stem ++ ".class" →
      ∃ name, binaryName file root = .ok name ∧ (resourceName name = relative.text ↔ '.' ∉ stem.toList) ∧
        ('.' ∉ stem.toList →
          (∀ (lookup : Classpath.Lookup) (world : World),
            lookup.read world name = lookup.readResource world relative.text) ∧
          (stem ≠ "" → ∀ id : Int, 0 ≤ id ∧ id < 2 ^ 64 →
            ClassKey.of name id = .ok ⟨stem ++ "." ++ Text.hex16 id ++ ".class"⟩)) := by
  refine ⟨fun name => binaryName_below root, fun file relative stem hrelative htext => ?_⟩
  have hback : resourceName (binaryNameOf relative.text) = relative.text ↔ '.' ∉ stem.toList := by
    rw [htext]
    exact resourceName_binaryNameOf_iff
  refine ⟨_, binaryName_of_relativeTo? hrelative, hback, fun hdot => ⟨fun lookup world => ?_, fun hne id hid => ?_⟩⟩
  · rw [Classpath.Lookup.read, hback.mpr hdot]
  · rw [htext]
    exact of_binaryNameOf_append hdot hne hid

/-- A class whose package has the name of the ending. -/
theorem binaryName_inverse_withPackageNamedClass :
    let root : Path := ⟨.root, ["classes"]⟩
    let file := root.below ["org", "class", "B$1.class"]
    binaryName file root = .ok "org.class.B$1" ∧ resourceName "org.class.B$1" = "org/class/B$1.class" ∧
      ClassKey.of "org.class.B$1" 10 = .ok ⟨"org/class/B$1.000000000000000a.class"⟩ := by
  intro root file
  obtain ⟨hname, hfile⟩ := binaryName_inverse root
  have hsplit : Text.splitAt '/' (resourceName "org.class.B$1") = ["org", "class", "B$1.class"] := by decide
  have hfound : binaryName file root = .ok "org.class.B$1" := by
    have hbelow := hname "org.class.B$1" (by decide) (by decide)
    rwa [hsplit] at hbelow
  obtain ⟨name, hname', hresource, hlast⟩ := hfile file ⟨.here, ["org", "class", "B$1.class"]⟩ "org/class/B$1" rfl rfl
  obtain rfl : name = "org.class.B$1" := Except.ok.inj (hname'.symm.trans hfound)
  refine ⟨hfound, hresource.mpr (by decide), ?_⟩
  rw [(hlast (by decide)).2 (by decide) 10 (by decide)]
  decide +kernel

end ClassDump
