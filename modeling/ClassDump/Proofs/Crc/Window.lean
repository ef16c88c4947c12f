import ClassDump.Proofs.Crc.Identity
import Mathlib.RingTheory.Coprime.Lemmas

/-! Changes that a check cannot miss. A generator with a constant term has no factor in common with the places behind a
change, so a change shorter than the register never divides out. For the identities of classes, where version 53 is
taken for version 52, that leaves one change in eight neighbouring bytes which goes unseen. -/

namespace ClassDump

namespace Crc

open Polynomial

variable {poly register other : UInt64} {first second : Bytes}

/-- The last bit of a reflected polynomial is its constant term. -/
theorem isCoprime_generator_X_pow (hpoly : poly.toBitVec.getLsbD 63 = true) (count : Nat) :
    IsCoprime (generator poly) (X ^ count) := by
  refine IsCoprime.pow_right ⟨1, -(X ^ 63 + polyOfBits ((List.range 63).map poly.toBitVec.getLsbD)), ?_⟩
  rw [generator, registerBits, polyOfBits_range_succ_last, hpoly, coefficient_true, C_1]
  ring

/-- What the generator divides together with some places behind it is nothing, if it is short enough for a register. -/
theorem eq_of_generator_dvd (hpoly : poly.toBitVec.getLsbD 63 = true) {count : Nat} {p q : (ZMod 2)[X]}
    (hp : p.degree < 64) (hq : q.degree < 64) (h : generator poly ∣ X ^ count * (p - q)) : p = q := by
  have hdvd := (isCoprime_generator_X_pow hpoly count).dvd_of_dvd_mul_left h
  have hsmall : (p - q).degree < (generator poly).degree := by
    rw [degree_generator]
    exact (degree_sub_le p q).trans_lt (max_lt hp hq)
  exact sub_eq_zero.mp (eq_zero_of_dvd_of_degree_lt hdvd hsmall)

theorem degree_registerBits_lt (register : UInt64) : (polyOfBits (registerBits register)).degree < 64 := by
  have h := degree_polyOfBits_lt (registerBits register)
  rwa [length_registerBits] at h

theorem length_messageBits (data : Bytes) : (messageBits data).length = 8 * data.length := by
  induction data with
  | nil => rfl
  | cons b rest ih =>
      rw [messageBits, List.flatMap_cons, List.length_append, length_byteBits, ← messageBits, ih, List.length_cons]
      ring

theorem byteBits_injective {a b : UInt8} (h : byteBits a = byteBits b) : a = b := by
  apply UInt8.toBitVec_inj.mp
  apply BitVec.eq_of_getLsbD_eq
  intro i hi
  exact List.map_inj_left.mp h i (List.mem_range.mpr hi)

theorem messageBits_injective (h : messageBits first = messageBits second) : first = second := by
  induction first generalizing second with
  | nil =>
      have hlength := congrArg List.length h
      rw [length_messageBits, length_messageBits, List.length_nil] at hlength
      exact (List.length_eq_zero_iff.mp (by omega)).symm
  | cons a rest ih =>
      cases second with
      | nil =>
          have hlength := congrArg List.length h
          rw [length_messageBits, length_messageBits, List.length_cons, List.length_nil] at hlength
          omega
      | cons b more =>
          obtain ⟨hbyte, hrest⟩ := List.append_inj h (by rw [length_byteBits, length_byteBits])
          rw [byteBits_injective hbyte, ih hrest]

theorem update_register_injective (hpoly : poly.toBitVec.getLsbD 63 = true) (data : Bytes)
    (h : update poly register data = update poly other data) : register = other := by
  have hdvd := dvd_sub (generator_dvd_update poly register data) (generator_dvd_update poly other data)
  rw [h] at hdvd
  have hplaces : generator poly ∣ X ^ (messageBits data).length *
      (polyOfBits (registerBits register) - polyOfBits (registerBits other)) := by
    convert hdvd using 1
    ring
  exact polyOfBits_registerBits_injective
    (eq_of_generator_dvd hpoly (degree_registerBits_lt register) (degree_registerBits_lt other) hplaces)

/-- Messages that fit into a register lead from one register to different ones. -/
theorem update_injective_of_length_le (hpoly : poly.toBitVec.getLsbD 63 = true)
    (hlength : first.length = second.length) (hshort : first.length ≤ 8)
    (h : update poly register first = update poly register second) : first = second := by
  have hbits : (messageBits first).length = (messageBits second).length := by
    rw [length_messageBits, length_messageBits, hlength]
  have hsmall : ∀ data : Bytes, data.length ≤ 8 → (polyOfBits (messageBits data)).degree < 64 := by
    intro data hdata
    have hbound : (messageBits data).length ≤ 64 := by
      rw [length_messageBits]
      omega
    exact (degree_polyOfBits_lt (messageBits data)).trans_le (Nat.cast_le.mpr hbound)
  have hdvd := dvd_sub (generator_dvd_update poly register first) (generator_dvd_update poly register second)
  rw [h, hbits] at hdvd
  have hplaces : generator poly ∣ X ^ 64 * (polyOfBits (messageBits first) - polyOfBits (messageBits second)) := by
    convert hdvd using 1
    ring
  exact messageBits_injective (polyOfBits_injective hbits
    (eq_of_generator_dvd hpoly (hsmall first hshort) (hsmall second (hlength ▸ hshort)) hplaces))

/-- The byte strings are the same outside of eight neighbouring places. -/
def AgreeOutside (start : Nat) (first second : Bytes) : Prop :=
  ∀ i, i < start ∨ start + 8 ≤ i → first[i]? = second[i]?

theorem agreeOutside_iff {start : Nat} : AgreeOutside start first second ↔
    first.take start = second.take start ∧ first.drop (start + 8) = second.drop (start + 8) := by
  constructor
  · refine fun h => ⟨List.ext_getElem? fun i => ?_, List.ext_getElem? fun i => ?_⟩
    · rw [List.getElem?_take, List.getElem?_take]
      split
      · next hi => exact h i (.inl hi)
      · rfl
    · rw [List.getElem?_drop, List.getElem?_drop]
      exact h _ (.inr (Nat.le_add_right _ _))
  · rintro ⟨htake, hdrop⟩ i (hi | hi)
    · rw [← List.getElem?_take_of_lt hi, htake, List.getElem?_take_of_lt hi]
    · obtain ⟨j, rfl⟩ := Nat.exists_eq_add_of_le hi
      rw [← List.getElem?_drop, hdrop, List.getElem?_drop]

instance (start : Nat) (first second : Bytes) : Decidable (AgreeOutside start first second) :=
  decidable_of_iff _ agreeOutside_iff.symm

/-- A change within eight neighbouring bytes changes the check. -/
theorem update_eq_iff_of_agreeOutside (hpoly : poly.toBitVec.getLsbD 63 = true) {start : Nat}
    (hlength : first.length = second.length) (h : AgreeOutside start first second) :
    update poly register first = update poly register second ↔ first = second := by
  refine ⟨fun hupdate => ?_, fun hsame => by rw [hsame]⟩
  have hsplit : ∀ data : Bytes,
      data = data.take start ++ ((data.drop start).take 8 ++ data.drop (start + 8)) := by
    intro data
    rw [← List.drop_drop, List.take_append_drop, List.take_append_drop]
  obtain ⟨htake, hdrop⟩ := agreeOutside_iff.mp h
  rw [hsplit first, hsplit second, update_append, update_append, update_append, update_append, htake, hdrop] at hupdate
  have hwindow := update_injective_of_length_le hpoly
    (by rw [List.length_take, List.length_take, List.length_drop, List.length_drop, hlength])
    (List.length_take_le 8 _) (update_register_injective hpoly _ hupdate)
  rw [hsplit first, hsplit second, htake, hdrop, hwindow]

end Crc

namespace ClassId

open Crc

variable {first second : Bytes} {start : Nat}

@[simp] theorem length_normalized (data : Bytes) : (normalized data).length = data.length := by
  rw [normalized]
  split
  · exact List.length_set
  · rfl

theorem getElem?_normalized_of_ne (data : Bytes) {i : Nat} (hi : i ≠ 7) : (normalized data)[i]? = data[i]? := by
  rw [normalized]
  split
  · exact List.getElem?_set_ne (Ne.symm hi)
  · rfl

/-- Eight neighbouring places that have the byte before the version have the version, too, so what is taken for another
version differs no farther. -/
theorem agreeOutside_normalized (hlength : first.length = second.length) (h : AgreeOutside start first second) :
    AgreeOutside start (normalized first) (normalized second) := by
  intro i hi
  by_cases hversion : i = 7
  · subst hversion
    have hhigh := h 6 (.inl (by omega))
    have hlow := h 7 hi
    have hstates : statesVersion53 first = statesVersion53 second := by
      rw [statesVersion53, statesVersion53, hlength, hhigh, hlow]
    rw [normalized, normalized, hstates]
    split
    · simp only [List.getElem?_set, hlength, if_true]
    · exact hlow
  · rw [getElem?_normalized_of_ne first hversion, getElem?_normalized_of_ne second hversion]
    exact h i hi

/-- The class file states version 53, and the other one is the same but for stating version 52. -/
def IsLowered (data other : Bytes) : Prop :=
  statesVersion53 data = true ∧ other = data.set 7 version52

instance (data other : Bytes) : Decidable (IsLowered data other) :=
  inferInstanceAs (Decidable (_ ∧ _))

theorem IsLowered.normalized_eq (h : IsLowered first second) : normalized first = normalized second := by
  obtain ⟨hstates, rfl⟩ := h
  have hlength := (statesVersion53_iff.mp hstates).1
  have hlowered : statesVersion53 (first.set 7 version52) = false := by
    rw [Bool.eq_false_iff, Ne, statesVersion53_iff, List.getElem?_set_self hlength]
    rintro ⟨-, -, hversion⟩
    exact absurd hversion (by decide)
  rw [normalized, if_pos hstates, normalized, hlowered, if_neg Bool.false_ne_true]

/-- Only the rewriting of version 53 as 52, or back, makes class files that differ be taken for the same. -/
theorem normalized_eq_normalized_iff :
    normalized first = normalized second ↔
      first = second ∨ IsLowered first second ∨ IsLowered second first := by
  constructor
  · intro h
    rw [normalized, normalized] at h
    split at h
    · next hfirst =>
      split at h
      · next hsecond =>
        -- both versions were replaced, and both were 53
        left
        refine List.ext_getElem? fun i => ?_
        by_cases hversion : i = 7
        · rw [hversion, (statesVersion53_iff.mp hfirst).2.2, (statesVersion53_iff.mp hsecond).2.2]
        · have hi := congrArg (fun data : Bytes => data[i]?) h
          rwa [List.getElem?_set_ne (Ne.symm hversion), List.getElem?_set_ne (Ne.symm hversion)] at hi
      · exact .inr (.inl ⟨hfirst, h.symm⟩)
    · split at h
      · next hsecond => exact .inr (.inr ⟨hsecond, h⟩)
      · exact .inl h
  · rintro (rfl | h | h)
    · rfl
    · exact h.normalized_eq
    · exact h.normalized_eq.symm

/-- Class files that are the same outside of eight neighbouring bytes have the same identity exactly if they become the
same when version 53 is rewritten as 52 in each. So a change within eight bytes always changes the identity, but for
that of version 53 into 52, or back. -/
theorem ofBytes_eq_iff_of_agreeOutside (hlength : first.length = second.length) (h : AgreeOutside start first second) :
    let lowered (data : Bytes) : Bytes :=
      if 7 < data.length ∧ data[6]? = some 0x00 ∧ data[7]? = some 0x35 then data.set 7 0x34 else data
    (ofBytes first = ofBytes second ↔ lowered first = lowered second) ∧
      (first ≠ second →
        (ofBytes first = ofBytes second ↔ IsLowered first second ∨ IsLowered second first)) := by
  intro lowered
  have hpoly : poly.toBitVec.getLsbD 63 = true := by decide
  have hlowered : ∀ data, lowered data = normalized data := fun data => (normalized_eq data).symm
  have hids : ofBytes first = ofBytes second ↔ normalized first = normalized second := by
    rw [ofBytes_eq, ofBytes_eq]
    exact update_eq_iff_of_agreeOutside hpoly (by rw [length_normalized, length_normalized, hlength])
      (agreeOutside_normalized hlength h)
  refine ⟨by rw [hids, hlowered, hlowered], fun hne => ?_⟩
  rw [hids, normalized_eq_normalized_iff]
  exact or_iff_right hne

/-- A class file of version 53 has the identity of that of version 52, and any other with one bit flipped there. -/
theorem ofBytes_eq_and_ne_at_version :
    let file (version : UInt8) : Bytes := [0xCA, 0xFE, 0xBA, 0xBE, 0x00, 0x00, 0x00, version, 0x01]
    (file 0x35).length = (file 0x34).length ∧ AgreeOutside 5 (file 0x35) (file 0x34) ∧ file 0x35 ≠ file 0x34 ∧
      ofBytes (file 0x35) = ofBytes (file 0x34) ∧ AgreeOutside 5 (file 0x35) (file 0x37) ∧
      ofBytes (file 0x35) ≠ ofBytes (file 0x37) := by
  intro file
  have hsame : AgreeOutside 5 (file 0x35) (file 0x34) := by decide
  have hother : AgreeOutside 5 (file 0x35) (file 0x37) := by decide
  have hne : file 0x35 ≠ file 0x34 := by decide
  have hlength : ∀ version, (file version).length = 9 := fun _ => rfl
  obtain ⟨-, hlowered⟩ := ofBytes_eq_iff_of_agreeOutside ((hlength 0x35).trans (hlength 0x34).symm) hsame
  obtain ⟨hchanged, -⟩ := ofBytes_eq_iff_of_agreeOutside ((hlength 0x35).trans (hlength 0x37).symm) hother
  have hrewritten : IsLowered (file 0x35) (file 0x34) := by decide
  exact ⟨rfl, hsame, hne, (hlowered hne).mpr (.inl hrewritten), hother, mt hchanged.mp (by decide)⟩

end ClassId
end ClassDump
