import ClassDump.ClassKey
import ClassDump.Proofs.Text.Hex
import ClassDump.Proofs.Text.Pieces

/-! What a class key says. Its ending and the sixteen digits in front of it have a fixed width, so the name and the
identity of the class can be read off the key, whatever dots, slashes, digits or endings the name itself has. -/

namespace ClassDump.ClassKey

variable {name : String} {id : Int}

def namePart (key : ClassKey) : String :=
  Text.dropLast key.path 23

/-- The number that the sixteen digits in front of the ending stand for. -/
def idPart? (key : ClassKey) : Option Nat :=
  let stem := (Text.dropLast key.path classSuffix.length).toList
  Text.hexNumber? (stem.drop (stem.length - 16))

/-- The key says the name and the identity of a class, the one with slashes and the other in sixteen digits. -/
structure Says (key : ClassKey) (name : String) (id : Int) : Prop where
  path : key.path = Text.replace '.' '/' name ++ "." ++ Text.hex16 id ++ ".class"
  width : (Text.hex16 id).length = 16
  digits : ∀ digit ∈ (Text.hex16 id).toList, digit ∈ Text.lowerHexDigits
  namePart : key.namePart = Text.replace '.' '/' name
  idPart : key.idPart? = some id.toNat

theorem toNat_lt (hid : 0 ≤ id ∧ id < idCount) : id.toNat < 16 ^ 16 := by
  have hlt := hid.2
  unfold idCount at hlt
  omega

/-- A number below 2 ^ 64 is written with sixteen hexadecimal digits. -/
theorem hex16_eq (hid : 0 ≤ id ∧ id < idCount) : Text.hex16 id = String.ofList (Text.hexDigits 16 id.toNat) := by
  rw [← Text.hex16_ofNat (toNat_lt hid), Int.toNat_of_nonneg hid.1]

theorem length_hex16 (hid : 0 ≤ id ∧ id < idCount) : (Text.hex16 id).toList.length = 16 := by
  rw [hex16_eq hid, String.toList_ofList, Text.length_hexDigits]

/-- A class has a key if it has a name and its identity fits into 64 bits. -/
theorem of_eq_ok (hname : name ≠ "") (hid : 0 ≤ id ∧ id < idCount) :
    of name id = .ok ⟨Text.replace '.' '/' name ++ "." ++ Text.hex16 id ++ classSuffix⟩ := by
  rw [of, if_neg hname, if_neg (by omega)]

theorem exists_error_iff : (∃ error, of name id = .error error) ↔ name = "" ∨ ¬(0 ≤ id ∧ id < idCount) := by
  constructor
  · rintro ⟨error, herror⟩
    by_contra hnone
    rw [not_or, not_not] at hnone
    rw [of_eq_ok hnone.1 hnone.2] at herror
    cases herror
  · intro h
    by_cases hname : name = ""
    · exact ⟨_, if_pos hname⟩
    · have hid := h.resolve_left hname
      rw [of, if_neg hname, if_pos (by omega)]
      exact ⟨_, rfl⟩

theorem namePart_mk (hid : 0 ≤ id ∧ id < idCount) (front : String) :
    namePart ⟨front ++ "." ++ Text.hex16 id ++ classSuffix⟩ = front := by
  have hrest : ("." ++ Text.hex16 id ++ classSuffix).toList.length = 23 := by
    simp only [String.toList_append, List.length_append, length_hex16 hid]
    decide
  have hname := Text.dropLast_append front hrest
  rwa [← String.append_assoc, ← String.append_assoc] at hname

theorem idPart?_mk (hid : 0 ≤ id ∧ id < idCount) (front : String) :
    idPart? ⟨front ++ "." ++ Text.hex16 id ++ classSuffix⟩ = some id.toNat := by
  have hstem : ((front ++ ".").toList ++ (Text.hex16 id).toList).length - 16 = (front ++ ".").toList.length := by
    rw [List.length_append, length_hex16 hid, Nat.add_sub_cancel]
  rw [idPart?, Text.dropLast_append _ String.length_toList, String.toList_append, hstem, List.drop_left,
    hex16_eq hid, String.toList_ofList, Text.hexNumber?_hexDigits, Nat.mod_eq_of_lt (toNat_lt hid)]

theorem says_of_ok {key : ClassKey} (h : of name id = .ok key) : key.Says name id := by
  obtain ⟨hname, hid⟩ : name ≠ "" ∧ 0 ≤ id ∧ id < idCount := by
    by_contra hnot
    obtain ⟨error, herror⟩ := exists_error_iff.mpr (not_and_or.mp hnot |>.imp_left not_not.mp)
    rw [h] at herror
    cases herror
  obtain rfl := Except.ok.inj (h.symm.trans (of_eq_ok hname hid))
  refine ⟨rfl, ?_, fun digit hdigit => ?_, namePart_mk hid _, idPart?_mk hid _⟩
  · rw [← String.length_toList, length_hex16 hid]
  · rw [hex16_eq hid, String.toList_ofList] at hdigit
    exact Text.mem_lowerHexDigits_of_mem_hexDigits hdigit

/-- Keys are the same only if they say the same. -/
theorem of_eq_of_iff {other : String} {otherId : Int} (hname : name ≠ "") (hother : other ≠ "")
    (hid : 0 ≤ id ∧ id < idCount) (hotherId : 0 ≤ otherId ∧ otherId < idCount) :
    of name id = of other otherId ↔ id = otherId ∧ Text.replace '.' '/' name = Text.replace '.' '/' other := by
  rw [of_eq_ok hname hid, of_eq_ok hother hotherId]
  constructor
  · intro h
    have hkey := Except.ok.inj h
    have hids := congrArg idPart? hkey
    have hnames := congrArg namePart hkey
    rw [idPart?_mk hid, idPart?_mk hotherId, Option.some.injEq] at hids
    rw [namePart_mk hid, namePart_mk hotherId] at hnames
    exact ⟨by omega, hnames⟩
  · rintro ⟨rfl, hnames⟩
    rw [hnames]

theorem hex16_lt_iff {otherId : Int} (hid : 0 ≤ id ∧ id < idCount) (hother : 0 ≤ otherId ∧ otherId < idCount) :
    Text.hex16 id < Text.hex16 otherId ↔ id < otherId := by
  have hlt := Text.hex16_lt_iff (toNat_lt hid) (toNat_lt hother)
  rw [Int.toNat_of_nonneg hid.1, Int.toNat_of_nonneg hother.1] at hlt
  rw [hlt]
  omega

/-- A class has a key exactly if it has a name and its identity fits into 64 bits. The key says both, so the keys of two
classes are the same only if their identities are and their names with slashes are, and identities are ordered as they
are written. -/
theorem of_decodable (name : String) (id : Int) :
    ((∃ error, of name id = .error error) ↔ name = "" ∨ ¬(0 ≤ id ∧ id < 2 ^ 64)) ∧
    (name ≠ "" → 0 ≤ id ∧ id < 2 ^ 64 →
      (∃ key, of name id = .ok key ∧ key.Says name id) ∧
      ∀ other otherId, other ≠ "" → 0 ≤ otherId ∧ otherId < 2 ^ 64 →
        (of name id = of other otherId ↔ id = otherId ∧ Text.replace '.' '/' name = Text.replace '.' '/' other) ∧
        (Text.hex16 id < Text.hex16 otherId ↔ id < otherId)) :=
  ⟨exists_error_iff, fun hname hid => ⟨⟨_, of_eq_ok hname hid, says_of_ok (of_eq_ok hname hid)⟩,
    fun _ _ hother hotherId => ⟨of_eq_of_iff hname hother hid hotherId, hex16_lt_iff hid hotherId⟩⟩⟩

/-- A name with a slash and one with a dot share a key, and the identity counts whatever else looks like one. -/
theorem of_decodable_withDigitsInName :
    let name := "a.0123456789abcdef.class"
    let other := "a/0123456789abcdef.class"
    of name (2 ^ 64 - 1) = .ok ⟨"a/0123456789abcdef/class.ffffffffffffffff.class"⟩ ∧
      of name (2 ^ 64 - 1) = of other (2 ^ 64 - 1) ∧ of name 9 ≠ of name 10 ∧ Text.hex16 9 < Text.hex16 10 := by
  intro name other
  obtain ⟨-, hlast⟩ := of_decodable name (2 ^ 64 - 1)
  obtain ⟨⟨key, hkey, hshown⟩, hsame⟩ := hlast (by decide) (by decide)
  obtain ⟨-, hnine⟩ := of_decodable name 9
  obtain ⟨hten, hless⟩ := (hnine (by decide) (by decide)).2 name 10 (by decide) (by decide)
  have hsaid : key = ⟨"a/0123456789abcdef/class.ffffffffffffffff.class"⟩ :=
    congrArg ClassKey.mk (hshown.path.trans (by decide +kernel))
  exact ⟨hkey.trans (congrArg Except.ok hsaid), (hsame other _ (by decide) (by decide)).1.mpr ⟨rfl, by decide⟩,
    fun heq => absurd (hten.mp heq).1 (by decide), hless.mpr (by decide)⟩

end ClassDump.ClassKey
