/-! Blank characters: those that Unicode gives the bidirectional class of a separator or white space, or
the category of a space separator. A text of blanks alone says nothing, and blanks around a text are not
part of it. -/

namespace ClassDump.Text

/-- The code points of the blank characters, as closed ranges in ascending order. -/
def blankRanges : List (Nat × Nat) :=
  [(0x09, 0x0D), (0x1C, 0x20), (0x85, 0x85), (0xA0, 0xA0), (0x1680, 0x1680), (0x2000, 0x200A),
    (0x2028, 0x2029), (0x202F, 0x202F), (0x205F, 0x205F), (0x3000, 0x3000)]

def isBlank (c : Char) : Bool :=
  blankRanges.any fun range => range.1 ≤ c.toNat && c.toNat ≤ range.2

/-- The characters without the blanks at both ends. -/
def trimChars (s : List Char) : List Char :=
  ((s.dropWhile isBlank).reverse.dropWhile isBlank).reverse

def trim (text : String) : String :=
  String.ofList (trimChars text.toList)

/-- The text has no character that is not blank. -/
def allBlank (text : String) : Bool :=
  text.toList.all isBlank

theorem isBlank_of_isWhitespace {c : Char} (h : c.isWhitespace = true) : isBlank c = true := by
  simp only [Char.isWhitespace, Bool.or_eq_true, decide_eq_true_eq] at h
  rcases h with ((rfl | rfl) | rfl) | rfl <;> decide

private theorem of_mem_takeWhile {p : Char → Bool} {c : Char} {s : List Char} (h : c ∈ s.takeWhile p) :
    p c = true :=
  List.all_eq_true.mp List.all_takeWhile c h

private theorem dropWhile_eq_nil_iff (p : Char → Bool) (s : List Char) :
    s.dropWhile p = [] ↔ ∀ c ∈ s, p c = true := by
  induction s with
  | nil => simp
  | cons c rest ih => by_cases h : p c <;> simp [h, ih]

theorem trimChars_eq_nil_iff (s : List Char) : trimChars s = [] ↔ ∀ c ∈ s, isBlank c = true := by
  have hd : ∀ c ∈ s, c ∈ s.dropWhile isBlank ∨ isBlank c = true := by
    intro c hc
    rw [← List.takeWhile_append_dropWhile (p := isBlank) (l := s), List.mem_append] at hc
    rcases hc with hc | hc
    · exact .inr (of_mem_takeWhile hc)
    · exact .inl hc
  simp only [trimChars, List.reverse_eq_nil_iff, dropWhile_eq_nil_iff, List.mem_reverse]
  constructor
  · intro h c hc
    rcases hd c hc with hc | hc
    · exact h c hc
    · exact hc
  · intro h c hc
    exact h c (List.dropWhile_subset _ hc)

end ClassDump.Text
