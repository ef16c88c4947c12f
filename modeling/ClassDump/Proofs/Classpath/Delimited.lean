import ClassDump.Classpath.Entry
import ClassDump.Proofs.Text.Pieces
import ClassDump.Proofs.Text.Trimmed
import Mathlib.Data.List.Forall2

/-! Classpaths with commas. The items of joined classpaths are those of the one and then those of the other, so it makes
no difference whether a classpath is given in one text or in several. An item is split into itself alone, so splitting
the items again gives no others. -/

namespace ClassDump

/-- The pieces of a text between its commas. -/
structure Text.IsCut (text : String) (pieces : List String) : Prop where
  ne_nil : pieces ≠ []
  noComma : ∀ piece ∈ pieces, ',' ∉ piece.toList
  joined : ",".intercalate pieces = text

/-- A text is cut in one way only. -/
theorem Text.isCut_iff {text : String} (pieces : List String) : IsCut text pieces ↔ pieces = splitAt ',' text := by
  constructor
  · intro h
    rw [← h.joined, splitAt_intercalate toList_comma h.ne_nil h.noComma]
  · rintro rfl
    exact ⟨splitAt_ne_nil text, fun _ => not_mem_of_mem_splitAt, intercalate_splitAt toList_comma text⟩

namespace Classpath

theorem items_append (pieces others : List String) : items (pieces ++ others) = items pieces ++ items others := by
  rw [items, List.filter_append, List.map_append]
  rfl

/-- The items of classpaths joined by a comma are those of the one and then those of the other. -/
theorem split_append (front rest : String) : split (front ++ "," ++ rest) = split front ++ split rest := by
  rw [split, Text.splitAt_append Text.toList_comma, items_append]
  rfl

theorem split_empty : split "" = [] := rfl

/-- Several classpaths have the items of their join. -/
theorem split_intercalate (texts : List String) : split (",".intercalate texts) = splitAll texts := by
  induction texts with
  | nil => exact split_empty
  | cons text rest ih =>
      cases rest with
      | nil => rw [String.intercalate_singleton, splitAll, List.flatMap_singleton]
      | cons next others =>
          rw [String.intercalate_cons_cons, split_append, ih]
          rfl

theorem splitBy_comma (text : String) : splitBy "," text = .ok (split text) := by
  unfold splitBy
  split
  · next hempty => rw [hempty, split_empty]
  · rw [if_neg (by decide), split, Text.split, Text.toList_comma, Text.pieces_singleton]
    rfl

section Item

variable {text item : String}

theorem mem_split_iff : item ∈ split text ↔
    ∃ piece ∈ Text.splitAt ',' text, Text.allBlank piece = false ∧ Text.trim piece = item := by
  simp [split, items, and_assoc]

theorem ne_empty_of_mem_split (h : item ∈ split text) : item ≠ "" := by
  obtain ⟨piece, -, hsaid, rfl⟩ := mem_split_iff.mp h
  rw [Ne, Text.trim_eq_empty_iff, hsaid]
  exact Bool.false_ne_true

theorem isTrimmed_of_mem_split (h : item ∈ split text) : Text.IsTrimmed item := by
  obtain ⟨piece, -, -, rfl⟩ := mem_split_iff.mp h
  exact Text.isTrimmed_trim piece

theorem comma_not_mem_of_mem_split (h : item ∈ split text) : ',' ∉ item.toList := by
  obtain ⟨piece, hpiece, -, rfl⟩ := mem_split_iff.mp h
  obtain ⟨before, after, -, -, hsurrounded⟩ := (Text.isCoreOf_trim piece).surrounded
  intro hcomma
  refine Text.not_mem_of_mem_splitAt hpiece ?_
  rw [hsurrounded, String.toList_append, String.toList_append]
  exact List.mem_append_left _ (List.mem_append_right _ hcomma)

/-- An item is split into itself alone. -/
theorem split_of_mem_split (h : item ∈ split text) : split item = [item] := by
  have htrimmed := (isTrimmed_of_mem_split h).trim_eq
  have hsaid : Text.allBlank item = false := by
    rw [← Bool.not_eq_true, ← Text.trim_eq_empty_iff, htrimmed]
    exact ne_empty_of_mem_split h
  simp [split, Text.splitAt_of_not_mem (comma_not_mem_of_mem_split h), items, hsaid, htrimmed]

/-- Items that are split again stay as they are. -/
theorem splitAll_split (text : String) : splitAll (split text) = split text := by
  rw [splitAll, List.flatMap_congr fun item hitem => split_of_mem_split hitem, List.flatMap_singleton']

end Item

/-- Several classpaths say the same as the one that they make when they are joined. The items of a classpath are its
pieces that say something, in turn and without the blanks around them, and they are the items of their join. -/
theorem split_exact (texts : List String) (text : String) :
    splitAll texts = split (",".intercalate texts) ∧
    splitBy "," text = .ok (split text) ∧
    (∃ pieces, (∀ others, Text.IsCut text others ↔ others = pieces) ∧
      List.Forall₂ Text.IsCoreOf (split text) (pieces.filter fun piece => !Text.allBlank piece)) ∧
    (∀ item ∈ split text, item ≠ "" ∧ ',' ∉ item.toList ∧ Text.IsTrimmed item) ∧
    split (",".intercalate (split text)) = split text := by
  refine ⟨(split_intercalate texts).symm, splitBy_comma text, ⟨_, Text.isCut_iff, ?_⟩, fun item hitem => ?_, ?_⟩
  · exact List.forall₂_map_left_iff.mpr (List.forall₂_same.mpr fun piece _ => Text.isCoreOf_trim piece)
  · exact ⟨ne_empty_of_mem_split hitem, comma_not_mem_of_mem_split hitem, isTrimmed_of_mem_split hitem⟩
  · rw [split_intercalate, splitAll_split]

example : split " a b ,, \u00a0c\u3000,\t" = ["a b", "c"] := by decide

end Classpath
end ClassDump
