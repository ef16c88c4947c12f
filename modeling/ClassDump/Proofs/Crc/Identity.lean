import ClassDump.ClassKey
import ClassDump.Proofs.Crc.Remainder
import Mathlib.Data.ZMod.Basic

/-! The identity of a class as a remainder. Divided are the bits of the class file, version 53 taken for version 52, with
64 places behind them, by `x^64 + x^4 + x^3 + x + 1`; the remainder is the identity, the constant coefficient being its
most significant bit. The parts that are fed in turn, each by table, come to the same as the whole. -/

namespace ClassDump.ClassId

open Crc Polynomial

/-- The reflected polynomial of the agent is that of the generator without its leading term. -/
theorem generator_poly : generator poly = X ^ 64 + X ^ 4 + X ^ 3 + X + 1 := by
  have hbits : registerBits poly = List.replicate 59 false ++ [true, true, false, true, true] := by
    rw [registerBits]
    decide
  have hlow : polyOfBits [true, true, false, true, true] = X ^ 4 + X ^ 3 + X + 1 := by
    simp [polyOfBits, add_assoc]
  rw [generator, hbits, polyOfBits_append, polyOfBits_replicate_false, zero_mul, zero_add, hlow]
  simp only [add_assoc]

theorem statesVersion53_iff {data : Bytes} :
    statesVersion53 data = true ↔ 7 < data.length ∧ data[6]? = some 0x00 ∧ data[7]? = some 0x35 := by
  simp only [statesVersion53, version53, Bool.and_eq_true, decide_eq_true_eq, beq_iff_eq, and_assoc]

/-- Only the byte of the version is replaced, and only in a class file that states version 53. -/
theorem normalized_eq (data : Bytes) :
    normalized data =
      if 7 < data.length ∧ data[6]? = some 0x00 ∧ data[7]? = some 0x35 then data.set 7 0x34 else data := by
  simp only [normalized, version52, statesVersion53_iff]

theorem ofBytes_eq_parts (data : Bytes) :
    ofBytes data =
      if 7 < data.length ∧ data[6]? = some 0x00 ∧ data[7]? = some 0x35 then
        updateByTable poly (updateByTable poly (updateByTable poly 0 (data.take 7)) [0x34]) (data.drop 8)
      else updateByTable poly 0 data := by
  simp only [ofBytes, statesVersion53_iff, version52, update_eq_updateByTable]

/-- The identity of a class file is the remainder of its bits, version 53 taken for version 52, with 64 places behind
them; it is the only register that stands for the remainder. It comes out of feeding the parts in turn as out of feeding
the whole, by table. -/
theorem ofBytes_eq_iff_remainder (data : Bytes) :
    (∀ id, ofBytes data = id ↔
      polyOfBits (registerBits id) =
        polyOfBits (messageBits (normalized data)) * X ^ 64 %ₘ (X ^ 64 + X ^ 4 + X ^ 3 + X + 1)) ∧
    (normalized data =
      if 7 < data.length ∧ data[6]? = some 0x00 ∧ data[7]? = some 0x35 then data.set 7 0x34 else data) ∧
    (ofBytes data =
      if 7 < data.length ∧ data[6]? = some 0x00 ∧ data[7]? = some 0x35 then
        updateByTable poly (updateByTable poly (updateByTable poly 0 (data.take 7)) [0x34]) (data.drop 8)
      else updateByTable poly 0 data) ∧
    ofBytes data = updateByTable poly 0 (normalized data) := by
  have hwhole := ofBytes_eq data
  refine ⟨fun id => ?_, normalized_eq data, ofBytes_eq_parts data, ?_⟩
  · rw [← generator_poly, ← polyOfBits_update, ← hwhole]
    constructor
    · intro hid
      rw [hid]
    · intro hpoly
      exact (polyOfBits_registerBits_injective hpoly).symm
  · rw [hwhole, update_eq_updateByTable]

/-- The check over the digits from one to nine. -/
example : ofBytes [0x31, 0x32, 0x33, 0x34, 0x35, 0x36, 0x37, 0x38, 0x39] = 0x46A5A9388A5BEFFE := by
  decide +kernel

end ClassDump.ClassId
