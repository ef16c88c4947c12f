import ClassDump.Pipeline
import ClassDump.Proofs.ClassKey.Decoding
import ClassDump.Proofs.Classpath.FirstAnswer
import ClassDump.Proofs.Path.Written
import ClassDump.Proofs.Walk.Place
import ClassDump.Reference

/-! The key of a class file, in terms of its path. The dots of the path without its ending give way to slashes, and the
identity and the ending follow. Every class file has a key but one that is named by the ending alone. The class files
below the roots of a classpath have their keys by the bytes that the first entry of the classpath has for each. -/

namespace ClassDump

namespace Reference

variable {relative : String} {data : Bytes} {names : Location} {root : Path}

def keyOf (relative : String) (data : Bytes) : String :=
  Text.replace '.' '/' (Text.dropLast relative classSuffix.length) ++ "." ++ Text.hex16 (agentId data) ++ classSuffix

/-- The identity that the agent gives to a class fits into 64 bits. -/
theorem agentId_mem_range (data : Bytes) : 0 ≤ agentId data ∧ agentId data < ClassKey.idCount := by
  have hlt := (ClassId.ofBytes data).toNat_lt
  unfold agentId ClassKey.idCount
  omega

def keyText (relative : String) (id : Int) : String :=
  Text.replace '.' '/' (Text.dropLast relative classSuffix.length) ++ "." ++ Text.hex16 id ++ classSuffix

theorem of_binaryNameOf_of_range (hclass : Text.endsWith relative classSuffix = true) (hne : relative ≠ classSuffix)
    {id : Int} (hid : 0 ≤ id ∧ id < ClassKey.idCount) :
    ClassKey.of (binaryNameOf relative) id = .ok ⟨keyText relative id⟩ := by
  have hstem : Text.dropLast relative classSuffix.length ≠ "" := fun h =>
    hne ((Text.dropLast_eq_empty_iff hclass).mp h)
  have hname : binaryNameOf relative = Text.replace '/' '.' (Text.dropLast relative classSuffix.length) := by
    rw [binaryNameOf, if_pos hclass]
  rw [hname, ClassKey.of_eq_ok (fun h => hstem (Text.replace_eq_empty_iff.mp h)) hid, Text.replace_dot_replace_slash,
    keyText]

theorem of_binaryNameOf (hclass : Text.endsWith relative classSuffix = true) (hne : relative ≠ classSuffix) :
    ClassKey.of (binaryNameOf relative) (agentId data) = .ok ⟨keyOf relative data⟩ :=
  of_binaryNameOf_of_range hclass hne (agentId_mem_range data)

theorem of_binaryNameOf_classSuffix {id : Int} :
    ClassKey.of (binaryNameOf (Path.mk .here [classSuffix]).text) id = .error .emptyName :=
  if_pos (by decide)

/-- A class file is one by its whole path, too. -/
theorem endsWith_text_of_isClassFile (hne : names ≠ []) (h : isClassFile (root.descend names) = true) :
    Text.endsWith (Path.mk .here names).text classSuffix = true := by
  obtain ⟨above, name, rfl⟩ := (List.eq_nil_or_concat names).resolve_left hne
  rw [List.concat_eq_append] at h ⊢
  rw [isClassFile, Path.name_descend] at h
  obtain ⟨start, hstart⟩ := @Path.exists_text_eq (Path.mk .here (above ++ [name])) (by simp)
  have hlast : (above ++ [name]).getLast (by simp) = name := by simp
  simp only [hlast] at hstart
  have hends := Text.endsWith_append start h
  rw [← hstart] at hends
  unfold Path.text
  dsimp only
  rw [if_neg]
  · exact hends
  · intro hempty
    rw [hempty] at hends
    exact absurd hends (by decide)

theorem text_ne_classSuffix (hnames : ∀ name ∈ names, LegalName name) (hne : names ≠ []) (h : names ≠ [classSuffix]) :
    (Path.mk .here names).text ≠ classSuffix := by
  intro htext
  have hsplit := Path.splitAt_text_names hne hnames
  rw [htext] at hsplit
  exact h (hsplit.symm.trans (by decide))

end Reference
open Classpath

namespace Reference

variable {world : World} {entries : List Path} {root : Path} {relative : Location}

/-- A class file stands at the relative location of a class directory. -/
def IsClassBelow (world : World) (root : Path) (relative : Location) : Prop :=
  ∃ there node, world.IsDirAt root there ∧ node.isDir = false ∧ world.root.bare? (there ++ relative) = some node ∧
    isClassFile (root.descend relative) = true

theorem IsClassBelow.isClassFile (h : IsClassBelow world root relative) : isClassFile (root.descend relative) = true := by
  obtain ⟨_, _, -, -, -, hclass⟩ := h
  exact hclass

theorem IsClassBelow.ne_nil (h : IsClassBelow world root relative) : relative ≠ [] := by
  rintro rfl
  obtain ⟨there, node, hthere, hnode, hbare, -⟩ := h
  rw [List.append_nil, hthere.2] at hbare
  cases hbare
  cases hnode

/-- The key is that of the class at the relative location, by the bytes of the first entry that has it. -/
def IsKeyAt (world : World) (entries : List Path) (relative : Location) (key : String) : Prop :=
  ∃ data, firstAnswer world (Path.mk .here relative).text entries = .ok (some data) ∧
    key = keyOf (Path.mk .here relative).text data

theorem IsKeyAt.eq_keyOf {key : String} {data : Bytes} (h : IsKeyAt world entries relative key)
    (hdata : firstAnswer world (Path.mk .here relative).text entries = .ok (some data)) :
    key = keyOf (Path.mk .here relative).text data := by
  obtain ⟨found, hfound, rfl⟩ := h
  rw [hdata, Except.ok.injEq, Option.some.injEq] at hfound
  rw [hfound]

/-- The key is that of some class file below the root. -/
def IsKeyBelow (world : World) (entries : List Path) (root : Path) (key : String) : Prop :=
  ∃ relative, IsClassBelow world root relative ∧ IsKeyAt world entries relative key

theorem interval_ne_zero (progress : Bool) : (Pipeline.referenceTask progress).interval ≠ some 0 := by
  cases progress <;> rintro ⟨⟩

end Reference
end ClassDump
