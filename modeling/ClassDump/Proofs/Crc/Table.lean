import ClassDump.Bytes
import Mathlib.Logic.Function.Iterate

/-! Checks by table. Division is linear in exclusive or, so the eight steps for a byte are the entry of a table for the
low byte of the register, and the rest of the register moved down by a byte. -/

namespace ClassDump.Crc

variable {poly register : UInt64}

theorem and_one_eq_zero_iff : register &&& 1 = 0 ↔ register.toBitVec.getLsbD 0 = false := by
  have hlow : (register &&& 1).toBitVec = BitVec.setWidth 64 (BitVec.ofBool (register.toBitVec.getLsbD 0)) := by
    rw [UInt64.toBitVec_and]
    exact BitVec.and_one_eq_setWidth_ofBool_getLsbD
  rw [← UInt64.toBitVec_inj, hlow]
  cases register.toBitVec.getLsbD 0 <;> decide

theorem toBitVec_shift (poly register : UInt64) :
    (shift poly register).toBitVec =
      register.toBitVec >>> 1 ^^^ (if register.toBitVec.getLsbD 0 then poly.toBitVec else 0) := by
  unfold shift
  cases hbit : register.toBitVec.getLsbD 0 with
  | false =>
      rw [if_pos (and_one_eq_zero_iff.mpr hbit)]
      simp
  | true =>
      have hodd : ¬register &&& 1 = 0 := by simp [and_one_eq_zero_iff, hbit]
      rw [if_neg hodd]
      simp

theorem shift_xor (poly first second : UInt64) :
    shift poly (first ^^^ second) = shift poly first ^^^ shift poly second := by
  -- where both bits leave, the polynomial is added twice
  have hadded : ∀ a b : Bool, (if a ^^ b then poly.toBitVec else 0) =
      (if a then poly.toBitVec else 0) ^^^ (if b then poly.toBitVec else 0) := by
    intro a b
    cases a <;> cases b <;> simp
  apply UInt64.toBitVec_inj.mp
  simp only [toBitVec_shift, UInt64.toBitVec_xor, BitVec.ushiftRight_xor_distrib, BitVec.getLsbD_xor, hadded]
  ac_rfl

theorem iterate_shift_xor (poly first second : UInt64) (count : Nat) :
    (shift poly)^[count] (first ^^^ second) = (shift poly)^[count] first ^^^ (shift poly)^[count] second := by
  induction count with
  | zero => rfl
  | succ count ih => simp only [Function.iterate_succ_apply', ih, shift_xor]

/-- As long as the bits that leave are not set, nothing is added. -/
theorem toBitVec_iterate_shift {count : Nat} (h : ∀ i < count, register.toBitVec.getLsbD i = false) :
    ((shift poly)^[count] register).toBitVec = register.toBitVec >>> count := by
  induction count with
  | zero => simp
  | succ count ih =>
      have hrest := ih fun i hi => h i (Nat.lt_succ_of_lt hi)
      have hbit : (register.toBitVec >>> count).getLsbD 0 = false := by
        simpa using h count (Nat.lt_succ_self count)
      rw [Function.iterate_succ_apply', toBitVec_shift, hrest, hbit, BitVec.shiftRight_add]
      simp

theorem byte_eq_iterate (poly register : UInt64) (b : UInt8) :
    byte poly register b = (shift poly)^[8] (register ^^^ b.toUInt64) := rfl

/-- The entry of the table for a byte: eight division steps. -/
def tableEntry (poly : UInt64) (index : UInt8) : UInt64 :=
  (shift poly)^[8] index.toUInt64

def byteByTable (poly register : UInt64) (b : UInt8) : UInt64 :=
  tableEntry poly (register.toUInt8 ^^^ b) ^^^ (register >>> 8)

def updateByTable (poly register : UInt64) (data : Bytes) : UInt64 :=
  data.foldl (byteByTable poly) register

/-- A byte by table is a byte in eight steps. -/
theorem byte_eq_byteByTable (poly register : UInt64) (b : UInt8) :
    byte poly register b = byteByTable poly register b := by
  have hlow : ∀ i, (register.toUInt8 ^^^ b).toUInt64.toBitVec.getLsbD i =
      (decide (i < 8) && (register ^^^ b.toUInt64).toBitVec.getLsbD i) := by
    intro i
    rw [UInt8.toBitVec_toUInt64, UInt8.toBitVec_xor, UInt64.toBitVec_toUInt8, UInt64.toBitVec_xor,
      UInt8.toBitVec_toUInt64]
    simp only [BitVec.getLsbD_setWidth, BitVec.getLsbD_xor]
    by_cases hi : i < 8
    · simp [hi, show i < 64 by omega]
    · simp [hi, BitVec.getLsbD_of_ge b.toBitVec i (Nat.not_lt.mp hi)]
  have hsplit : register ^^^ b.toUInt64 = (register.toUInt8 ^^^ b).toUInt64 ^^^
      ((register.toUInt8 ^^^ b).toUInt64 ^^^ (register ^^^ b.toUInt64)) := by
    rw [← UInt64.xor_assoc, UInt64.xor_self, UInt64.zero_xor]
  have hhigh : ∀ i < 8, ((register.toUInt8 ^^^ b).toUInt64 ^^^ (register ^^^ b.toUInt64)).toBitVec.getLsbD i =
      false := by
    intro i hi
    rw [UInt64.toBitVec_xor, BitVec.getLsbD_xor, hlow]
    simp [hi]
  rw [byte_eq_iterate, hsplit, iterate_shift_xor, byteByTable, tableEntry]
  congr 1
  apply UInt64.toBitVec_inj.mp
  rw [toBitVec_iterate_shift hhigh]
  apply BitVec.eq_of_getLsbD_eq
  intro i _
  have hbyte : b.toUInt64.toBitVec.getLsbD (8 + i) = false := by simp
  rw [BitVec.getLsbD_ushiftRight, UInt64.toBitVec_xor, BitVec.getLsbD_xor, hlow]
  simp [Nat.not_lt.mpr (Nat.le_add_right 8 i)]

/-- A message by table is the message byte by byte. -/
theorem update_eq_updateByTable (poly register : UInt64) (data : Bytes) :
    update poly register data = updateByTable poly register data := by
  have hbyte : byte poly = byteByTable poly := by
    funext register b
    exact byte_eq_byteByTable poly register b
  rw [update, updateByTable, hbyte]

end ClassDump.Crc
