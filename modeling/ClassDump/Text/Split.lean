/-! Cutting a text at a separator. The pieces, joined by the separator, give the text back. -/

namespace ClassDump.Text

def consFirst (c : Char) : List (List Char) → List (List Char)
  | [] => [[c]]
  | piece :: pieces => (c :: piece) :: pieces

/-- Cuts at every occurrence of `sep`, from left to right and without overlap; `skip` characters of an
occurrence already found are passed over. -/
def pieces (sep : List Char) : Nat → List Char → List (List Char)
  | _, [] => [[]]
  | skip + 1, _ :: rest => pieces sep skip rest
  | 0, c :: rest =>
    if sep.isPrefixOf (c :: rest) then [] :: pieces sep (sep.length - 1) rest
    else consFirst c (pieces sep 0 rest)

/-- The pieces of a text between the occurrences of a separator; a text without one is its only piece. -/
def split (sep text : String) : List String :=
  (pieces sep.toList 0 text.toList).map String.ofList

/-- The pieces of a list of characters between the occurrences of one character. -/
def piecesAt (sep : Char) : List Char → List (List Char)
  | [] => [[]]
  | c :: rest => if c = sep then [] :: piecesAt sep rest else consFirst c (piecesAt sep rest)

/-- The pieces of a text between the occurrences of one character. -/
def splitAt (sep : Char) (text : String) : List String :=
  (piecesAt sep text.toList).map String.ofList

def replace (old new : Char) (text : String) : String :=
  String.ofList (text.toList.map fun c => if c = old then new else c)

def startsWith (text start : String) : Bool :=
  start.toList.isPrefixOf text.toList

def endsWith (text ending : String) : Bool :=
  ending.toList.isSuffixOf text.toList

def dropLast (text : String) (n : Nat) : String :=
  String.ofList (text.toList.take (text.toList.length - n))

theorem piecesAt_ne_nil (sep : Char) (s : List Char) : piecesAt sep s ≠ [] := by
  induction s with
  | nil => simp [piecesAt]
  | cons c rest ih =>
    rw [piecesAt]
    split
    · simp
    · cases piecesAt sep rest <;> simp [consFirst]

theorem pieces_singleton (sep : Char) (s : List Char) : pieces [sep] 0 s = piecesAt sep s := by
  induction s with
  | nil => rfl
  | cons c rest ih =>
    by_cases h : c = sep
    · subst h
      simp [pieces, piecesAt, ih]
    · simp [pieces, piecesAt, ih, h, Ne.symm h]

theorem intercalate_piecesAt (sep : Char) (s : List Char) :
    [sep].intercalate (piecesAt sep s) = s := by
  induction s with
  | nil => simp [piecesAt, List.intercalate]
  | cons c rest ih =>
    have hne := piecesAt_ne_nil sep rest
    rw [piecesAt]
    cases h : piecesAt sep rest with
    | nil => exact absurd h hne
    | cons p ps =>
      rw [h] at ih
      split
      · next hc =>
        subst hc
        rw [← ih]
        simp [List.intercalate, List.intersperse]
      · rw [← ih]
        cases ps <;> simp [consFirst, List.intercalate, List.intersperse]

end ClassDump.Text
