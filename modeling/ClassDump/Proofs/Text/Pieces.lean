import ClassDump.Text.Split

/-! Texts that are cut at a character, cut off at the end, or written with one character in place of another. Texts
without the separator come back when they are joined by it and cut again; the pieces of joined texts are those of the
one and then those of the other; and a separator may be replaced before the cut as well as after it. -/

namespace ClassDump.Text

theorem toList_slash : "/".toList = ['/'] := rfl

theorem toList_comma : ",".toList = [','] := rfl

theorem mem_toList_intercalate {c : Char} {sep : String} {parts : List String}
    (h : c ∈ (sep.intercalate parts).toList) : c ∈ sep.toList ∨ ∃ part ∈ parts, c ∈ part.toList := by
  induction parts with
  | nil => simp at h
  | cons part rest ih =>
      cases rest with
      | nil => exact .inr ⟨part, by simp, by simpa using h⟩
      | cons next others =>
          rw [String.intercalate_cons_cons, String.toList_append, String.toList_append] at h
          rcases List.mem_append.mp h with h | h
          · rcases List.mem_append.mp h with h | h
            · exact .inr ⟨part, by simp, h⟩
            · exact .inl h
          · rcases ih h with hsep | ⟨found, hfound, hc⟩
            · exact .inl hsep
            · exact .inr ⟨found, List.mem_cons_of_mem _ hfound, hc⟩

section Pieces

variable {sep : Char}

theorem piecesAt_of_not_mem {piece : List Char} (h : sep ∉ piece) : piecesAt sep piece = [piece] := by
  induction piece with
  | nil => rfl
  | cons c rest ih =>
      rw [List.mem_cons, not_or] at h
      rw [piecesAt, if_neg (Ne.symm h.1), ih h.2, consFirst]

/-- What stands in front of a separator and what stands behind it are cut apart. -/
theorem piecesAt_append (front rest : List Char) :
    piecesAt sep (front ++ sep :: rest) = piecesAt sep front ++ piecesAt sep rest := by
  induction front with
  | nil => exact if_pos rfl
  | cons c others ih =>
      rw [List.cons_append, piecesAt, piecesAt, ih]
      split
      · rfl
      · cases hpieces : piecesAt sep others with
        | nil => exact absurd hpieces (piecesAt_ne_nil sep others)
        | cons first pieces => rfl

theorem mem_of_mem_piecesAt {s piece : List Char} (h : piece ∈ piecesAt sep s) {c : Char} (hc : c ∈ piece) :
    c ∈ s ∧ c ≠ sep := by
  induction s generalizing piece with
  | nil =>
      rw [List.mem_singleton.mp h] at hc
      cases hc
  | cons d rest ih =>
      rw [piecesAt] at h
      split at h
      · rcases List.mem_cons.mp h with rfl | h
        · cases hc
        · exact (ih h hc).imp_left (List.mem_cons_of_mem _)
      · next hd =>
        cases hpieces : piecesAt sep rest with
        | nil => exact absurd hpieces (piecesAt_ne_nil sep rest)
        | cons first others =>
            rw [hpieces, consFirst] at h
            rcases List.mem_cons.mp h with rfl | h
            · rcases List.mem_cons.mp hc with rfl | hc
              · exact ⟨List.mem_cons_self, hd⟩
              · exact (ih (hpieces ▸ List.mem_cons_self) hc).imp_left (List.mem_cons_of_mem _)
            · exact (ih (hpieces ▸ List.mem_cons_of_mem _ h) hc).imp_left (List.mem_cons_of_mem _)

theorem mem_of_mem_splitAt {text piece : String} (h : piece ∈ splitAt sep text) {c : Char} (hc : c ∈ piece.toList) :
    c ∈ text.toList ∧ c ≠ sep := by
  obtain ⟨found, hfound, rfl⟩ := List.mem_map.mp h
  rw [String.toList_ofList] at hc
  exact mem_of_mem_piecesAt hfound hc

theorem not_mem_of_mem_splitAt {text piece : String} (h : piece ∈ splitAt sep text) : sep ∉ piece.toList :=
  fun hsep => (mem_of_mem_splitAt h hsep).2 rfl

theorem splitAt_ne_nil (text : String) : splitAt sep text ≠ [] := by
  rw [splitAt, Ne, List.map_eq_nil_iff]
  exact piecesAt_ne_nil sep text.toList

theorem splitAt_of_not_mem {text : String} (h : sep ∉ text.toList) : splitAt sep text = [text] := by
  rw [splitAt, piecesAt_of_not_mem h, List.map_singleton, String.ofList_toList]

theorem splitAt_cons (sep : Char) (text : String) :
    splitAt sep (String.singleton sep ++ text) = "" :: splitAt sep text := by
  have htext : (String.singleton sep ++ text).toList = sep :: text.toList := by simp
  rw [splitAt, htext, piecesAt, if_pos rfl, List.map_cons]
  rfl

theorem exists_piecesAt_append {rest : List Char} (h : sep ∉ rest) (s : List Char) :
    ∃ front last, piecesAt sep s = front ++ [last] ∧ piecesAt sep (s ++ rest) = front ++ [last ++ rest] := by
  induction s with
  | nil => exact ⟨[], [], rfl, piecesAt_of_not_mem h⟩
  | cons c others ih =>
      obtain ⟨front, last, hbefore, hafter⟩ := ih
      rw [List.cons_append, piecesAt, piecesAt, hbefore, hafter]
      split
      · exact ⟨[] :: front, last, rfl, rfl⟩
      · cases front with
        | nil => exact ⟨[], c :: last, rfl, rfl⟩
        | cons first pieces => exact ⟨(c :: first) :: pieces, last, rfl, rfl⟩

/-- What holds no separator goes with the last piece. -/
theorem exists_splitAt_append {rest : String} (h : sep ∉ rest.toList) (text : String) :
    ∃ front last, splitAt sep text = front ++ [last] ∧ splitAt sep (text ++ rest) = front ++ [last ++ rest] := by
  obtain ⟨front, last, hbefore, hafter⟩ := exists_piecesAt_append h text.toList
  refine ⟨front.map String.ofList, String.ofList last, ?_, ?_⟩
  · rw [splitAt, hbefore, List.map_append, List.map_singleton]
  · rw [splitAt, String.toList_append, hafter, List.map_append, List.map_singleton, String.ofList_append,
      String.ofList_toList]

variable {joint : String} (hjoint : joint.toList = [sep])
include hjoint

theorem splitAt_append (front rest : String) :
    splitAt sep (front ++ joint ++ rest) = splitAt sep front ++ splitAt sep rest := by
  rw [splitAt, String.toList_append, String.toList_append, hjoint, List.append_assoc, List.singleton_append,
    piecesAt_append, List.map_append]
  rfl

/-- The pieces, joined by the separator, give the text back. -/
theorem intercalate_splitAt (text : String) : joint.intercalate (splitAt sep text) = text := by
  rw [← String.toList_inj, String.toList_intercalate, hjoint, splitAt, List.map_map]
  simp only [Function.comp_def, String.toList_ofList, List.map_id']
  exact intercalate_piecesAt sep text.toList

/-- Texts without the separator come back when they are joined by it and cut again. -/
theorem splitAt_intercalate {pieces : List String} (hne : pieces ≠ []) (h : ∀ piece ∈ pieces, sep ∉ piece.toList) :
    splitAt sep (joint.intercalate pieces) = pieces := by
  induction pieces with
  | nil => exact absurd rfl hne
  | cons piece rest ih =>
      have hpiece := h piece List.mem_cons_self
      cases rest with
      | nil => rw [String.intercalate_singleton, splitAt_of_not_mem hpiece]
      | cons next others =>
          rw [String.intercalate_cons_cons, splitAt_append hjoint, splitAt_of_not_mem hpiece,
            ih (List.cons_ne_nil _ _) fun other hother => h other (List.mem_cons_of_mem _ hother), List.singleton_append]

end Pieces

section Ends

variable {text ending : String}

theorem dropLast_eq_empty_iff (h : endsWith text ending = true) : dropLast text ending.length = "" ↔ text = ending := by
  rw [endsWith, List.isSuffixOf_iff_suffix] at h
  rw [dropLast, String.ofList_eq_empty_iff, List.take_eq_nil_iff, ← String.length_toList]
  constructor
  · rintro (hlength | hempty)
    · exact String.toList_inj.mp (h.eq_of_length_le (by omega)).symm
    · rw [hempty, List.suffix_nil] at h
      exact String.toList_inj.mp (hempty.trans h.symm)
  · rintro rfl
    exact .inl (Nat.sub_self _)

theorem dropLast_append (start : String) {rest : String} {n : Nat} (h : rest.toList.length = n) :
    dropLast (start ++ rest) n = start := by
  rw [dropLast, String.toList_append, List.length_append, h, Nat.add_sub_cancel, List.take_left, String.ofList_toList]

theorem endsWith_append (start : String) (h : endsWith text ending = true) : endsWith (start ++ text) ending = true := by
  rw [endsWith, List.isSuffixOf_iff_suffix] at h ⊢
  rw [String.toList_append]
  exact h.trans (List.suffix_append _ _)

end Ends

section Replace

variable {old new : Char} {text : String}

theorem replace_eq_empty_iff : replace old new text = "" ↔ text = "" := by
  rw [replace, String.ofList_eq_empty_iff, List.map_eq_nil_iff, String.toList_eq_nil_iff]

theorem replace_of_not_mem (h : old ∉ text.toList) : replace old new text = text := by
  have hmap : text.toList.map (fun c => if c = old then new else c) = text.toList.map id :=
    List.map_congr_left fun c hc => if_neg fun (heq : c = old) => h (heq ▸ hc)
  rw [replace, hmap, List.map_id, String.ofList_toList]

theorem not_mem_replace (hne : old ≠ new) (text : String) : old ∉ (replace old new text).toList := by
  rw [replace, String.toList_ofList, List.mem_map]
  rintro ⟨c, -, hc⟩
  split at hc
  · exact hne hc.symm
  · next hold => exact hold hc

/-- Only a text without the character is the same after its replacement. -/
theorem replace_eq_self_iff (hne : old ≠ new) : replace old new text = text ↔ old ∉ text.toList :=
  ⟨fun h => by simpa only [h] using not_mem_replace hne text, replace_of_not_mem⟩

/-- A replacement by a character that is new to the text can be taken back. -/
theorem replace_replace (h : new ∉ text.toList) : replace new old (replace old new text) = text := by
  rw [← String.toList_inj]
  simp only [replace, String.toList_ofList, List.map_map]
  refine (List.map_congr_left fun c hc => ?_).trans (List.map_id _)
  have hnew : c ≠ new := fun heq => h (heq ▸ hc)
  by_cases hold : c = old <;> simp [hold, hnew]

theorem piecesAt_map {s : List Char} (h : new ∉ s) :
    piecesAt new (s.map fun c => if c = old then new else c) = piecesAt old s := by
  induction s with
  | nil => rfl
  | cons c rest ih =>
      rw [List.mem_cons, not_or] at h
      rw [List.map_cons, piecesAt, piecesAt, ih h.2]
      by_cases hold : c = old
      · rw [if_pos hold, if_pos rfl, if_pos hold]
      · rw [if_neg hold, if_neg (Ne.symm h.1), if_neg hold]

/-- A separator that is new to the text may be put in the place of another before the cut as well as after it. -/
theorem splitAt_replace (h : new ∉ text.toList) : splitAt new (replace old new text) = splitAt old text := by
  rw [splitAt, replace, String.toList_ofList, piecesAt_map h]
  rfl

/-- Slashes that were turned into dots are turned back with all other dots. -/
theorem replace_dot_replace_slash (text : String) : replace '.' '/' (replace '/' '.' text) = replace '.' '/' text := by
  simp only [replace, String.toList_ofList, List.map_map]
  refine congrArg String.ofList (List.map_congr_left fun c _ => ?_)
  by_cases hslash : c = '/'
  · simp [hslash]
  · simp [hslash]

end Replace

end ClassDump.Text
