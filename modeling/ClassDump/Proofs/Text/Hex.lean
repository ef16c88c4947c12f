import ClassDump.Text.Digit
import Mathlib.Tactic.IntervalCases

/-! Hexadecimal numerals of a fixed width. Their digits stand for the number again, and their order by code points is
that of the numbers. -/

namespace ClassDump.Text

/-- The digits of hexadecimal numerals in lower case. -/
def lowerHexDigits : List Char := "0123456789abcdef".toList

/-- The number that hexadecimal digits stand for, the most significant one first. -/
def hexNumber? (digits : List Char) : Option Nat :=
  digits.foldlM (fun number digit => (hexValue? digit).map (16 * number + ·)) 0

theorem hexValue?_hexDigit {n : Nat} (h : n < 16) : hexValue? (hexDigit n) = some n := by
  interval_cases n <;> rfl

theorem hexDigit_mem_lowerHexDigits {n : Nat} (h : n < 16) : hexDigit n ∈ lowerHexDigits := by
  interval_cases n <;> decide

theorem hexDigit_lt_iff {m n : Nat} (hm : m < 16) (hn : n < 16) : hexDigit m < hexDigit n ↔ m < n := by
  have hall : ∀ first second : Fin 16, hexDigit first < hexDigit second ↔ first < second := by decide
  exact hall ⟨m, hm⟩ ⟨n, hn⟩

theorem mem_lowerHexDigits_of_mem_hexDigits {width n : Nat} {digit : Char} (h : digit ∈ hexDigits width n) :
    digit ∈ lowerHexDigits := by
  induction width generalizing n with
  | zero => cases h
  | succ width ih =>
      rcases List.mem_append.mp h with hfront | hlast
      · exact ih hfront
      · obtain rfl := List.mem_singleton.mp hlast
        exact hexDigit_mem_lowerHexDigits (Nat.mod_lt n (by decide))

/-- The digits of a numeral stand for as much of the number as its width has room for. -/
theorem hexNumber?_hexDigits (width n : Nat) : hexNumber? (hexDigits width n) = some (n % 16 ^ width) := by
  induction width generalizing n with
  | zero => exact congrArg some (Nat.mod_one n).symm
  | succ width ih =>
      have hlast := hexValue?_hexDigit (Nat.mod_lt n (show 0 < 16 by decide))
      have hdigits : 16 * (n / 16 % 16 ^ width) + n % 16 = n % 16 ^ (width + 1) := by
        rw [Nat.pow_succ', Nat.mod_mul, Nat.add_comm]
      unfold hexNumber? at ih ⊢
      rw [hexDigits, List.foldlM_append, ih, ← hdigits]
      simp [hlast]

/-- Among texts of one length the last character decides only where the others are the same. -/
theorem append_singleton_lt_iff {front other : List Char} (h : front.length = other.length) (last final : Char) :
    front ++ [last] < other ++ [final] ↔ front < other ∨ front = other ∧ last < final := by
  induction front generalizing other with
  | nil =>
      obtain rfl := List.eq_nil_of_length_eq_zero h.symm
      simp [List.cons_lt_cons_iff]
  | cons c rest ih =>
      obtain ⟨d, more, rfl⟩ := List.exists_cons_of_length_eq_add_one h.symm
      rw [List.cons_append, List.cons_append, List.cons_lt_cons_iff, List.cons_lt_cons_iff, ih (Nat.succ.inj h),
        List.cons.injEq, and_or_left, or_assoc, and_assoc]

/-- Numerals of one width stand in the order of their numbers. -/
theorem hexDigits_lt_iff {width m n : Nat} (hm : m < 16 ^ width) (hn : n < 16 ^ width) :
    hexDigits width m < hexDigits width n ↔ m < n := by
  induction width generalizing m n with
  | zero =>
      rw [Nat.pow_zero, Nat.lt_one_iff] at hm hn
      subst hm hn
      simp [hexDigits]
  | succ width ih =>
      rw [Nat.pow_succ] at hm hn
      have hfront : hexDigits width (m / 16) = hexDigits width (n / 16) ↔ m / 16 = n / 16 := by
        refine ⟨fun heq => ?_, congrArg _⟩
        have hnumber := congrArg hexNumber? heq
        rwa [hexNumber?_hexDigits, hexNumber?_hexDigits, Nat.mod_eq_of_lt (by omega), Nat.mod_eq_of_lt (by omega),
          Option.some.injEq] at hnumber
      rw [hexDigits, hexDigits, append_singleton_lt_iff (by simp), ih (by omega) (by omega), hfront,
        hexDigit_lt_iff (Nat.mod_lt m (by decide)) (Nat.mod_lt n (by decide))]
      omega

theorem hex16_ofNat {n : Nat} (h : n < 16 ^ 16) : hex16 n = String.ofList (hexDigits 16 n) := by
  have hlog : n.log2 < 4 * 16 := by
    rcases Nat.eq_zero_or_pos n with rfl | hpos
    · decide
    · exact (Nat.log2_lt (Nat.ne_of_gt hpos)).mpr h
  exact congrArg String.ofList (paddedHex_of_log2_lt hlog)

/-- The numerals of sixteen columns stand in the order of their numbers, too. -/
theorem hex16_lt_iff {m n : Nat} (hm : m < 16 ^ 16) (hn : n < 16 ^ 16) : hex16 m < hex16 n ↔ m < n := by
  rw [hex16_ofNat hm, hex16_ofNat hn, String.lt_iff, String.toList_ofList, String.toList_ofList,
    hexDigits_lt_iff hm hn]

end ClassDump.Text
