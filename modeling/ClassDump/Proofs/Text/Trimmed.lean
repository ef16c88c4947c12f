import ClassDump.Text.Blank
import Mathlib.Data.List.DropRight

/-! Texts without blanks around them. Trimming takes away blanks at both ends until none is left there, and does nothing
to a text that has none there. -/

namespace ClassDump.Text

/-- There are no blanks at the ends of the text. -/
structure IsTrimmed (text : String) : Prop where
  start : ∀ c ∈ text.toList.head?, isBlank c = false
  final : ∀ c ∈ text.toList.getLast?, isBlank c = false

/-- What is left of a text when the blanks around it are taken away. -/
structure IsCoreOf (core text : String) : Prop where
  trimmed : IsTrimmed core
  surrounded : ∃ before after, allBlank before = true ∧ allBlank after = true ∧ text = before ++ core ++ after

theorem trimChars_eq_rdropWhile (s : List Char) : trimChars s = (s.dropWhile isBlank).rdropWhile isBlank := rfl

theorem trim_eq_empty_iff {text : String} : trim text = "" ↔ allBlank text = true := by
  rw [trim, String.ofList_eq_empty_iff, trimChars_eq_nil_iff, allBlank, List.all_eq_true]

theorem not_isBlank_of_head?_dropWhile {s : List Char} {c : Char} (h : (s.dropWhile isBlank).head? = some c) :
    isBlank c = false := by
  have hnot := List.head?_dropWhile_not isBlank s
  rwa [h] at hnot

theorem isTrimmed_trim (text : String) : IsTrimmed (trim text) := by
  constructor
  · intro c hc
    obtain ⟨dropped, hdropped⟩ := List.rdropWhile_prefix isBlank (text.toList.dropWhile isBlank)
    have hstart : (text.toList.dropWhile isBlank).head? = some c := by
      rw [trim, String.toList_ofList, trimChars_eq_rdropWhile, Option.mem_def] at hc
      rw [← hdropped, List.head?_append, hc, Option.some_or]
    exact not_isBlank_of_head?_dropWhile hstart
  · intro c hc
    rw [trim, String.toList_ofList, trimChars_eq_rdropWhile] at hc
    obtain ⟨hne, rfl⟩ := List.mem_getLast?_eq_getLast hc
    exact Bool.eq_false_iff.mpr (List.rdropWhile_last_not isBlank _ hne)

theorem IsTrimmed.trim_eq {text : String} (h : IsTrimmed text) : trim text = text := by
  have hstart : text.toList.dropWhile isBlank = text.toList := by
    refine List.dropWhile_eq_self_iff.mpr fun hpos => ?_
    rw [h.start _ (by rw [List.head?_eq_getElem?]; exact List.getElem?_eq_getElem hpos)]
    exact Bool.false_ne_true
  have hfinal : text.toList.rdropWhile isBlank = text.toList := by
    refine List.rdropWhile_eq_self_iff.mpr fun hne => ?_
    rw [h.final _ (List.getLast?_eq_some_getLast hne)]
    exact Bool.false_ne_true
  rw [trim, trimChars_eq_rdropWhile, hstart, hfinal, String.ofList_toList]

theorem isCoreOf_trim (text : String) : IsCoreOf (trim text) text := by
  refine ⟨isTrimmed_trim text, String.ofList (text.toList.takeWhile isBlank),
    String.ofList ((text.toList.dropWhile isBlank).rtakeWhile isBlank), ?_, ?_, ?_⟩
  · rw [allBlank, String.toList_ofList]
    exact List.all_takeWhile
  · rw [allBlank, String.toList_ofList, List.all_eq_true]
    exact fun c => List.mem_rtakeWhile_imp
  · rw [← String.toList_inj, String.toList_append, String.toList_append, trim, String.toList_ofList,
      String.toList_ofList, String.toList_ofList, trimChars_eq_rdropWhile, List.append_assoc,
      List.rdropWhile_append_rtakeWhile, List.takeWhile_append_dropWhile]

end ClassDump.Text
