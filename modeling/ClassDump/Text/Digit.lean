/-! Digits. Hexadecimal numerals are written in lower case and padded with zeros to a width; decimal digits are those of
all scripts, and some texts look like negative numbers in them. -/

namespace ClassDump.Text

def hexDigit (n : Nat) : Char :=
  if n < 10 then Char.ofNat (n + 48) else Char.ofNat (n + 87)

/-- The last `width` hexadecimal digits of a number, most significant first. -/
def hexDigits : Nat → Nat → List Char
  | 0, _ => []
  | width + 1, n => hexDigits width (n / 16) ++ [hexDigit (n % 16)]

/-- The number of hexadecimal digits of a number without leading zeros; zero has one. -/
def hexWidth (n : Nat) : Nat :=
  n.log2 / 4 + 1

/-- The hexadecimal numeral of a number, with leading zeros up to `width` digits. -/
def paddedHex (width n : Nat) : List Char :=
  hexDigits (max width (hexWidth n)) n

/-- The numeral of an integer in sixteen columns, of which a minus sign takes one. -/
def hex16 (value : Int) : String :=
  match value with
  | .ofNat n => String.ofList (paddedHex 16 n)
  | .negSucc n => String.ofList ('-' :: paddedHex 15 (n + 1))

/-- The number that a hexadecimal digit of either case stands for. -/
def hexValue? (c : Char) : Option Nat :=
  if '0' ≤ c ∧ c ≤ '9' then some (c.toNat - 48)
  else if 'a' ≤ c ∧ c ≤ 'f' then some (c.toNat - 87)
  else if 'A' ≤ c ∧ c ≤ 'F' then some (c.toNat - 55)
  else none

@[simp] theorem length_hexDigits (width n : Nat) : (hexDigits width n).length = width := by
  induction width generalizing n with
  | zero => rfl
  | succ width ih => simp [hexDigits, ih]

theorem paddedHex_of_log2_lt {width n : Nat} (h : n.log2 < 4 * width) :
    paddedHex width n = hexDigits width n := by
  have hle : hexWidth n ≤ width := by
    unfold hexWidth
    omega
  rw [paddedHex, Nat.max_eq_left hle]

/-- The code points of the digits zero of Unicode 14. The digits of a script follow its zero in order. -/
def zeroDigits : List Nat :=
  [0x30, 0x660, 0x6F0, 0x7C0, 0x966, 0x9E6, 0xA66, 0xAE6, 0xB66, 0xBE6, 0xC66, 0xCE6, 0xD66, 0xDE6, 0xE50, 0xED0,
    0xF20, 0x1040, 0x1090, 0x17E0, 0x1810, 0x1946, 0x19D0, 0x1A80, 0x1A90, 0x1B50, 0x1BB0, 0x1C40, 0x1C50, 0xA620,
    0xA8D0, 0xA900, 0xA9D0, 0xA9F0, 0xAA50, 0xABF0, 0xFF10, 0x104A0, 0x10D30, 0x11066, 0x110F0, 0x11136, 0x111D0,
    0x112F0, 0x11450, 0x114D0, 0x11650, 0x116C0, 0x11730, 0x118E0, 0x11950, 0x11C50, 0x11D50, 0x11DA0, 0x16A60,
    0x16AC0, 0x16B50, 0x1D7CE, 0x1D7D8, 0x1D7E2, 0x1D7EC, 0x1D7F6, 0x1E140, 0x1E2F0, 0x1E950, 0x1FBF0]

def isDecimalDigit (c : Char) : Bool :=
  zeroDigits.any fun first => first ≤ c.toNat && c.toNat < first + 10

/-- The characters are a numeral: digits, or a point with at least one digit after it. -/
def isNumeral (chars : List Char) : Bool :=
  match chars.dropWhile isDecimalDigit with
  | [] => !chars.isEmpty
  | '.' :: places => !places.isEmpty && places.all isDecimalDigit
  | _ => false

/-- The text is a minus sign and a numeral; a line end may follow. -/
def looksNegative (text : String) : Bool :=
  match text.toList with
  | '-' :: rest => isNumeral (if rest.getLast? = some '\n' then rest.dropLast else rest)
  | _ => false

theorem isDecimalDigit_of_isDigit {c : Char} (h : c.isDigit = true) : isDecimalDigit c = true := by
  simp only [Char.isDigit, Bool.and_eq_true, decide_eq_true_eq, UInt32.le_iff_toNat_le] at h
  have low : 48 ≤ c.toNat := h.1
  have high : c.toNat ≤ 57 := h.2
  simp only [isDecimalDigit, zeroDigits, List.any_cons, Bool.or_eq_true, Bool.and_eq_true, decide_eq_true_eq]
  exact .inl ⟨low, by omega⟩

end ClassDump.Text
