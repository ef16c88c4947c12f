import ClassDump.Proofs.Crc.Table
import Mathlib.Algebra.CharP.Two
import Mathlib.Algebra.Field.ZMod
import Mathlib.Algebra.Polynomial.Div
import Mathlib.Algebra.Polynomial.Monic
import Mathlib.Tactic.Ring

/-! Checks as remainders. Bits are the coefficients of a polynomial over the field of two elements, from the highest one
down; of a byte and of a register the least significant bit comes first. The register after a message is the remainder
of the message, with a place for the register behind it, by the generator. -/

namespace ClassDump.Crc

open Polynomial

def coefficient (bit : Bool) : ZMod 2 :=
  if bit then 1 else 0

/-- The polynomial with the bits as its coefficients, the last bit being the constant one. -/
noncomputable def polyOfBits : List Bool → (ZMod 2)[X]
  | [] => 0
  | bit :: rest => C (coefficient bit) * X ^ rest.length + polyOfBits rest

def byteBits (b : UInt8) : List Bool :=
  (List.range 8).map b.toBitVec.getLsbD

def messageBits (data : Bytes) : List Bool :=
  data.flatMap byteBits

/-- The bits of a register, the least significant one first. Irreducible, or unification would open the sixty-four of
them. -/
@[irreducible] def registerBits (register : UInt64) : List Bool :=
  (List.range 64).map register.toBitVec.getLsbD

/-- What messages are divided by: the reflected polynomial with its leading term. -/
noncomputable def generator (poly : UInt64) : (ZMod 2)[X] :=
  X ^ 64 + polyOfBits (registerBits poly)

@[simp] theorem coefficient_false : coefficient false = 0 := rfl

@[simp] theorem coefficient_true : coefficient true = 1 := rfl

theorem coefficient_xor (a b : Bool) : coefficient (a ^^ b) = coefficient a + coefficient b := by
  cases a <;> cases b <;> decide

theorem coefficient_injective {a b : Bool} (h : coefficient a = coefficient b) : a = b := by
  revert h
  cases a <;> cases b <;> decide

section Bits

variable {bits others : List Bool}

theorem polyOfBits_append (bits others : List Bool) :
    polyOfBits (bits ++ others) = polyOfBits bits * X ^ others.length + polyOfBits others := by
  induction bits with
  | nil => simp [polyOfBits]
  | cons bit rest ih =>
      simp only [List.cons_append, polyOfBits, ih, List.length_append, pow_add]
      ring

theorem polyOfBits_replicate_false (count : Nat) : polyOfBits (List.replicate count false) = 0 := by
  induction count with
  | zero => rfl
  | succ count ih => simp [List.replicate_succ, polyOfBits, ih]

theorem polyOfBits_map_xor (first second : Nat → Bool) (places : List Nat) :
    polyOfBits (places.map fun i => first i ^^ second i) =
      polyOfBits (places.map first) + polyOfBits (places.map second) := by
  induction places with
  | nil => simp [polyOfBits]
  | cons place rest ih =>
      simp only [List.map_cons, polyOfBits, List.length_map, coefficient_xor, C_add, ih]
      ring

/-- The first of the bits has the highest coefficient. -/
theorem polyOfBits_range_succ_first (bit : Nat → Bool) (count : Nat) :
    polyOfBits ((List.range (count + 1)).map bit) =
      C (coefficient (bit 0)) * X ^ count + polyOfBits ((List.range count).map fun i => bit (i + 1)) := by
  rw [List.range_succ_eq_map, List.map_cons, polyOfBits, List.map_map, List.length_map, List.length_range]
  rfl

/-- The last of the bits is the constant coefficient. -/
theorem polyOfBits_range_succ_last (bit : Nat → Bool) (count : Nat) :
    polyOfBits ((List.range (count + 1)).map bit) =
      X * polyOfBits ((List.range count).map bit) + C (coefficient (bit count)) := by
  rw [List.range_succ, List.map_append, polyOfBits_append]
  simp only [List.map_cons, List.map_nil, polyOfBits, List.length_cons, List.length_nil]
  ring

theorem degree_polyOfBits_lt (bits : List Bool) : (polyOfBits bits).degree < bits.length := by
  induction bits with
  | nil => simp [polyOfBits]
  | cons bit rest ih =>
      have hlong : ((rest.length : Nat) : WithBot Nat) < ((bit :: rest).length : Nat) :=
        Nat.cast_lt.mpr (Nat.lt_succ_self rest.length)
      refine (degree_add_le _ _).trans_lt (max_lt ?_ (ih.trans hlong))
      exact (degree_C_mul_X_pow_le _ _).trans_lt hlong

theorem polyOfBits_injective (hlength : bits.length = others.length) (h : polyOfBits bits = polyOfBits others) :
    bits = others := by
  induction bits generalizing others with
  | nil => exact (List.length_eq_zero_iff.mp hlength.symm).symm
  | cons bit rest ih =>
      cases others with
      | nil => cases hlength
      | cons other more =>
          have hrest : rest.length = more.length := Nat.succ.inj hlength
          have hhead : ∀ (b : Bool) (tail : List Bool),
              (polyOfBits (b :: tail)).coeff tail.length = coefficient b := by
            intro b tail
            rw [polyOfBits, coeff_add, coeff_C_mul, coeff_X_pow_self, mul_one,
              coeff_eq_zero_of_degree_lt (degree_polyOfBits_lt tail), add_zero]
          have hbit : bit = other := by
            apply coefficient_injective
            rw [← hhead bit rest, ← hhead other more, h, hrest]
          subst hbit
          rw [polyOfBits, polyOfBits, hrest] at h
          rw [ih hrest (add_left_cancel h)]

end Bits

theorem length_byteBits (b : UInt8) : (byteBits b).length = 8 := by simp [byteBits]

theorem length_registerBits (register : UInt64) : (registerBits register).length = 64 := by simp [registerBits]

theorem polyOfBits_registerBits_injective {register other : UInt64}
    (h : polyOfBits (registerBits register) = polyOfBits (registerBits other)) : register = other := by
  have hlength : (registerBits register).length = (registerBits other).length := by
    rw [length_registerBits, length_registerBits]
  have hbits := polyOfBits_injective hlength h
  unfold registerBits at hbits
  apply UInt64.toBitVec_inj.mp
  apply BitVec.eq_of_getLsbD_eq
  intro i hi
  have hi := List.mem_range.mpr hi
  exact List.map_inj_left.mp hbits i hi

section Step

variable (poly register : UInt64)

theorem polyOfBits_xor (other : UInt64) :
    polyOfBits (registerBits (register ^^^ other)) =
      polyOfBits (registerBits register) + polyOfBits (registerBits other) := by
  have hbits : registerBits (register ^^^ other) =
      (List.range 64).map fun i => register.toBitVec.getLsbD i ^^ other.toBitVec.getLsbD i := by
    rw [registerBits]
    exact List.map_congr_left fun i _ => by rw [UInt64.toBitVec_xor, BitVec.getLsbD_xor]
  rw [hbits, polyOfBits_map_xor, registerBits, registerBits]

theorem polyOfBits_toUInt64 (b : UInt8) :
    polyOfBits (registerBits b.toUInt64) = polyOfBits (byteBits b) * X ^ 56 := by
  have hrange : List.range 64 = List.range 8 ++ (List.range 56).map (8 + ·) := by decide
  have hlow : (List.range 8).map b.toUInt64.toBitVec.getLsbD = byteBits b := by
    refine List.map_congr_left fun i hi => ?_
    have hi := List.mem_range.mp hi
    simp [show i < 64 by omega]
  have hhigh : ((List.range 56).map (8 + ·)).map b.toUInt64.toBitVec.getLsbD = List.replicate 56 false := by
    refine List.eq_replicate_iff.mpr ⟨by simp, fun bit hbit => ?_⟩
    simp only [List.map_map, List.mem_map] at hbit
    obtain ⟨i, -, rfl⟩ := hbit
    simp
  have hbits : registerBits b.toUInt64 = byteBits b ++ List.replicate 56 false := by
    rw [registerBits, hrange, List.map_append, hlow, hhigh]
  rw [hbits, polyOfBits_append, polyOfBits_replicate_false, List.length_replicate, add_zero]

/-- A division step makes the polynomial of the register grow by one degree, and takes the generator away where a bit
leaves. -/
theorem X_mul_sub_shift :
    X * polyOfBits (registerBits register) - polyOfBits (registerBits (shift poly register)) =
      C (coefficient (register.toBitVec.getLsbD 0)) * generator poly := by
  have hmoved : polyOfBits ((List.range 64).map (register.toBitVec >>> 1).getLsbD) =
      X * polyOfBits (registerBits register) - C (coefficient (register.toBitVec.getLsbD 0)) * X ^ 64 := by
    have hlast : (register.toBitVec >>> 1).getLsbD 63 = false := by simp
    have hnext : (register.toBitVec >>> 1).getLsbD = fun i => register.toBitVec.getLsbD (i + 1) := by
      funext i
      rw [BitVec.getLsbD_ushiftRight, Nat.add_comm]
    rw [registerBits, polyOfBits_range_succ_last,
      polyOfBits_range_succ_first register.toBitVec.getLsbD, hlast, coefficient_false, C_0,
      hnext]
    ring
  have hadded : polyOfBits ((List.range 64).map fun i =>
      (if register.toBitVec.getLsbD 0 then poly.toBitVec else 0).getLsbD i) =
      C (coefficient (register.toBitVec.getLsbD 0)) * polyOfBits (registerBits poly) := by
    cases register.toBitVec.getLsbD 0 with
    | false =>
        have hnone : ((List.range 64).map fun i => ((0 : BitVec 64).getLsbD i)) = List.replicate 64 false := by decide
        simpa [hnone] using polyOfBits_replicate_false 64
    | true => simp [registerBits]
  have hshift : polyOfBits (registerBits (shift poly register)) =
      X * polyOfBits (registerBits register) - C (coefficient (register.toBitVec.getLsbD 0)) * X ^ 64 +
        C (coefficient (register.toBitVec.getLsbD 0)) * polyOfBits (registerBits poly) := by
    have hbits : registerBits (shift poly register) =
        (List.range 64).map fun i => (register.toBitVec >>> 1).getLsbD i ^^
          (if register.toBitVec.getLsbD 0 then poly.toBitVec else 0).getLsbD i := by
      rw [registerBits]
      exact List.map_congr_left fun i _ => by rw [toBitVec_shift, BitVec.getLsbD_xor]
    rw [hbits, polyOfBits_map_xor, hadded, ← hmoved]
  rw [hshift, generator]
  -- over the field of two elements, subtracting is adding
  calc X * polyOfBits (registerBits register) -
        (X * polyOfBits (registerBits register) - C (coefficient (register.toBitVec.getLsbD 0)) * X ^ 64 +
          C (coefficient (register.toBitVec.getLsbD 0)) * polyOfBits (registerBits poly))
      = C (coefficient (register.toBitVec.getLsbD 0)) * (X ^ 64 - polyOfBits (registerBits poly)) := by ring
    _ = C (coefficient (register.toBitVec.getLsbD 0)) * (X ^ 64 + polyOfBits (registerBits poly)) := by
        rw [CharTwo.sub_eq_add]

/-- So many division steps multiply by as many degrees, but for multiples of the generator. -/
theorem generator_dvd_iterate_shift (count : Nat) :
    generator poly ∣ X ^ count * polyOfBits (registerBits register) -
      polyOfBits (registerBits ((shift poly)^[count] register)) := by
  induction count with
  | zero => simp
  | succ count ih =>
      rw [Function.iterate_succ_apply']
      have hstep := X_mul_sub_shift poly ((shift poly)^[count] register)
      have hsplit : X ^ (count + 1) * polyOfBits (registerBits register) -
          polyOfBits (registerBits (shift poly ((shift poly)^[count] register))) =
            X * (X ^ count * polyOfBits (registerBits register) -
              polyOfBits (registerBits ((shift poly)^[count] register))) +
            (X * polyOfBits (registerBits ((shift poly)^[count] register)) -
              polyOfBits (registerBits (shift poly ((shift poly)^[count] register)))) := by ring
      rw [hsplit, hstep]
      exact dvd_add (ih.mul_left X) (dvd_mul_left _ _)

/-- A byte makes room for itself and is added in the highest places. -/
theorem generator_dvd_byte (b : UInt8) :
    generator poly ∣ X ^ 8 * polyOfBits (registerBits register) + X ^ 64 * polyOfBits (byteBits b) -
      polyOfBits (registerBits (byte poly register b)) := by
  have hsteps := generator_dvd_iterate_shift poly (register ^^^ b.toUInt64) 8
  rw [polyOfBits_xor, polyOfBits_toUInt64] at hsteps
  rw [byte_eq_iterate]
  convert hsteps using 2
  ring

/-- What a register becomes over a message: it moves up by the length of the message, which is added behind it. -/
theorem generator_dvd_update (data : Bytes) :
    generator poly ∣ X ^ (messageBits data).length * polyOfBits (registerBits register) +
      X ^ 64 * polyOfBits (messageBits data) - polyOfBits (registerBits (update poly register data)) := by
  induction data generalizing register with
  | nil => simp [messageBits, polyOfBits, update]
  | cons b rest ih =>
      have hrest := ih (byte poly register b)
      have hbyte := (generator_dvd_byte poly register b).mul_left (X ^ (messageBits rest).length)
      have hbits : messageBits (b :: rest) = byteBits b ++ messageBits rest := rfl
      have hupdate : update poly register (b :: rest) = update poly (byte poly register b) rest := rfl
      rw [hbits, hupdate, List.length_append, length_byteBits, polyOfBits_append]
      convert dvd_add hbyte hrest using 1
      ring

end Step

/-- The generator has a leading term only for the degree of the register. -/
theorem monic_generator (poly : UInt64) : (generator poly).Monic := by
  rw [generator]
  apply monic_X_pow_add
  have h := degree_polyOfBits_lt (registerBits poly)
  rwa [length_registerBits] at h

theorem degree_generator (poly : UInt64) : (generator poly).degree = 64 := by
  have h := degree_polyOfBits_lt (registerBits poly)
  rw [length_registerBits] at h
  have hdegree := degree_add_eq_left_of_degree_lt (h.trans_eq (degree_X_pow (R := ZMod 2) 64).symm)
  rw [generator, hdegree, degree_X_pow]
  rfl

/-- From an empty register, the register after a message is the remainder of the message with a place behind it. -/
theorem polyOfBits_update (poly : UInt64) (data : Bytes) :
    polyOfBits (registerBits (update poly 0 data)) = polyOfBits (messageBits data) * X ^ 64 %ₘ generator poly := by
  have hempty : polyOfBits (registerBits 0) = 0 := by
    have hbits : registerBits 0 = List.replicate 64 false := by
      rw [registerBits]
      decide
    rw [hbits, polyOfBits_replicate_false]
  have hdvd := generator_dvd_update poly 0 data
  rw [hempty, mul_zero, zero_add, mul_comm] at hdvd
  have hsmall : (polyOfBits (registerBits (update poly 0 data))).degree < (generator poly).degree := by
    have h := degree_polyOfBits_lt (registerBits (update poly 0 data))
    rw [length_registerBits] at h
    rw [degree_generator]
    exact h
  rw [modByMonic_eq_of_dvd_sub (monic_generator poly) hdvd, (modByMonic_eq_self_iff (monic_generator poly)).mpr hsmall]

end ClassDump.Crc
