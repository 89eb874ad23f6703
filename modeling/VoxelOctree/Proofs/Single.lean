import VoxelOctree.Proofs.Rounding
import VoxelOctree.Single

namespace VoxelOctree

open BinaryFormat

theorem BinaryFormat.infinity_lt : binary32.infinity < 0x80000000 := by
  decide

theorem BinaryFormat.fractionBits_pos : 0 < binary32.fractionBits := by
  decide

namespace Single

variable {a b : Single} {o : Nat}

theorem ordinal_ofOrdinal (isNegative : Bool) (h : o < 0x80000000) : (ofOrdinal isNegative o).ordinal = o := by
  rw [ordinal, ofOrdinal, UInt32.toNat_ofNat']
  cases isNegative <;> simp <;> omega

theorem negative_ofOrdinal (isNegative : Bool) (h : o < 0x80000000) :
    (ofOrdinal isNegative o).negative = isNegative := by
  rw [negative, ofOrdinal, UInt32.toNat_ofNat']
  cases isNegative <;> simp <;> omega

theorem ofOrdinal_ordinal (a : Single) : ofOrdinal a.negative a.ordinal = a := by
  obtain ⟨bits⟩ := a
  have hlt := bits.toNat_lt
  have hbits : (if 0x80000000 ≤ bits.toNat then 0x80000000 + bits.toNat % 0x80000000 else bits.toNat % 0x80000000) =
      bits.toNat := by
    split_ifs <;> omega
  simp only [ofOrdinal, negative, ordinal, decide_eq_true_eq, hbits, UInt32.ofNat_toNat]

theorem isFinite_iff : a.isFinite = true ↔ a.ordinal < binary32.infinity := by
  rw [isFinite, decide_eq_true_eq]

theorem not_isNaN (h : a.isFinite = true) : a.isNaN = false := by
  rw [isFinite_iff] at h
  rw [isNaN, decide_eq_false_iff_not]
  omega

theorem isFinite_ofOrdinal (isNegative : Bool) (h : o < binary32.infinity) :
    (ofOrdinal isNegative o).isFinite = true := by
  rwa [isFinite_iff, ordinal_ofOrdinal isNegative (h.trans infinity_lt)]

theorem units_ofOrdinal (isNegative : Bool) (h : o < 0x80000000) :
    (ofOrdinal isNegative o).units = if isNegative then -(binary32.units o : Int) else binary32.units o := by
  rw [units, magnitude, negative_ofOrdinal isNegative h, ordinal_ofOrdinal isNegative h]

theorem neg_eq (a : Single) : -a = ofOrdinal (!a.negative) a.ordinal := by
  obtain ⟨bits⟩ := a
  have hlt := bits.toNat_lt
  have hmod : (bits.toNat ^^^ 2 ^ 31) % 2 ^ 31 = bits.toNat % 2 ^ 31 := by
    rw [Nat.xor_mod_two_pow, Nat.mod_self, Nat.xor_zero]
  have hdiv : (bits.toNat ^^^ 2 ^ 31) / 2 ^ 31 = bits.toNat / 2 ^ 31 ^^^ 1 := by
    rw [Nat.xor_div_two_pow, Nat.div_self (by decide)]
  have hxor : bits.toNat ^^^ 2 ^ 31 =
      if !decide (0x80000000 ≤ bits.toNat) then 0x80000000 + bits.toNat % 0x80000000 else bits.toNat % 0x80000000 := by
    by_cases h : 0x80000000 ≤ bits.toNat
    · have hone : (1 ^^^ 1 : Nat) = 0 := rfl
      rw [show bits.toNat / 2 ^ 31 = 1 by omega, hone] at hdiv
      simp only [h, decide_true, Bool.not_true, Bool.false_eq_true, ↓reduceIte]
      omega
    · have hone : (0 ^^^ 1 : Nat) = 1 := rfl
      rw [show bits.toNat / 2 ^ 31 = 0 by omega, hone] at hdiv
      simp only [h, decide_false, Bool.not_false, ↓reduceIte]
      omega
  show (⟨bits ^^^ 0x80000000⟩ : Single) = _
  rw [ofOrdinal, negative, ordinal, ← hxor, ← UInt32.ofNat_toNat (x := bits ^^^ 0x80000000), UInt32.toNat_xor]
  rfl

structure IsInt (a : Single) (n : Int) : Prop where
  finite : a.isFinite = true
  units_eq : a.units = n * 2 ^ binary32.scale

theorem units_infinity : binary32.units binary32.infinity = 2 ^ 24 * 2 ^ 253 := by
  decide

theorem add_eq_addFinite (ha : a.isFinite = true) (hb : b.isFinite = true) : a + b = addFinite a b := by
  show add a b = _
  rw [add, not_isNaN ha, not_isNaN hb, ha, hb]
  rfl

theorem add_exact (ha : a.isFinite = true) (hb : b.isFinite = true) {r s : Nat} (hr : r ≤ 16777216) (hs : s < 253)
    (hsum : (a.units + b.units).natAbs = r * 2 ^ s) : (a + b).isFinite = true ∧ (a + b).units = a.units + b.units := by
  have hfinite : r * 2 ^ s < binary32.units binary32.infinity := by
    calc r * 2 ^ s ≤ 2 ^ 24 * 2 ^ 252 := Nat.mul_le_mul hr (Nat.pow_le_pow_right (by decide) (by omega))
      _ < binary32.units binary32.infinity := by
        rw [units_infinity]
        decide
  obtain ⟨hlt, hunits⟩ := units_nearest fractionBits_pos Nat.one_pos hr hfinite
  rw [add_eq_addFinite ha hb, addFinite]
  split_ifs with hz
  · have hzero : (0 : Nat) < binary32.infinity := by decide
    rw [hz, units_ofOrdinal _ (hzero.trans infinity_lt)]
    exact ⟨isFinite_ofOrdinal _ hzero, by simp [BinaryFormat.units]⟩
  · rw [Nat.mul_one, ← hsum] at hlt hunits
    refine ⟨isFinite_ofOrdinal _ hlt, ?_⟩
    rw [units_ofOrdinal _ (hlt.trans infinity_lt), hunits]
    by_cases hneg : a.units + b.units < 0
    · simp only [hneg, decide_true, ↓reduceIte]
      omega
    · simp only [hneg, decide_false, Bool.false_eq_true, ↓reduceIte]
      omega

namespace IsInt

variable {m n : Int}

theorem add (ha : a.IsInt m) (hb : b.IsInt n) (h : (m + n).natAbs ≤ 16777216) : (a + b).IsInt (m + n) := by
  have hsum : (a.units + b.units).natAbs = (m + n).natAbs * 2 ^ binary32.scale := by
    rw [ha.units_eq, hb.units_eq, ← Int.add_mul, Int.natAbs_mul]
    rfl
  obtain ⟨hfinite, hunits⟩ := add_exact ha.finite hb.finite h (by decide) hsum
  refine ⟨hfinite, ?_⟩
  rw [hunits, ha.units_eq, hb.units_eq, Int.add_mul]

theorem ofNat_shifted {r s : Nat} (hr : r ≤ 16777216) (hs : s < 104) :
    (Single.ofNat (r * 2 ^ s)).IsInt (r * 2 ^ s : Nat) := by
  have hplace : r * 2 ^ s * 2 ^ binary32.scale = r * 2 ^ (s + binary32.scale) := by
    rw [Nat.mul_assoc, ← Nat.pow_add]
  have hscale : s + binary32.scale ≤ 252 := Nat.add_le_add_right (Nat.le_of_lt_succ hs) 149
  have hfinite : r * 2 ^ (s + binary32.scale) < binary32.units binary32.infinity := by
    calc r * 2 ^ (s + binary32.scale) ≤ 2 ^ 24 * 2 ^ 252 :=
          Nat.mul_le_mul hr (Nat.pow_le_pow_right (by decide) hscale)
      _ < binary32.units binary32.infinity := by
        rw [units_infinity]
        decide
  obtain ⟨hlt, hunits⟩ := units_nearest fractionBits_pos Nat.one_pos hr hfinite
  rw [Nat.mul_one] at hlt hunits
  rw [Single.ofNat, ofRatio, hplace]
  refine ⟨isFinite_ofOrdinal _ hlt, ?_⟩
  rw [units_ofOrdinal _ (hlt.trans infinity_lt), hunits, ← hplace]
  push_cast
  rfl

theorem ofNat {n : Nat} (h : n ≤ 16777216) : (Single.ofNat n).IsInt n := by
  simpa using ofNat_shifted h (s := 0) (by decide)

theorem ofNat_two_pow {level : Nat} (h : level < 104) : (Single.ofNat (2 ^ level)).IsInt (2 ^ level : Nat) := by
  simpa using ofNat_shifted (r := 1) (by decide) h

theorem neg (ha : a.IsInt n) : (-a).IsInt (-n) := by
  have hlt := isFinite_iff.mp ha.finite
  rw [neg_eq]
  refine ⟨isFinite_ofOrdinal _ hlt, ?_⟩
  rw [units_ofOrdinal _ (hlt.trans infinity_lt), Int.neg_mul, ← ha.units_eq, Single.units, magnitude]
  cases a.negative <;> simp

end IsInt

end Single

end VoxelOctree
