import VoxelOctree.Proofs.Single

namespace VoxelOctree

namespace BinaryFormat

variable {f : BinaryFormat} {o n : Nat}

theorem nearest_add_lt (hf : 0 < f.fractionBits) (ho : o < f.infinity) (hn : 2 * n < f.gap (f.infinity - 1)) :
    f.nearest (f.units o + n) 1 < f.infinity := by
  obtain ⟨top, htop⟩ := Nat.exists_eq_add_one.mpr (Nat.zero_lt_of_lt ho)
  rw [htop, Nat.add_sub_cancel] at hn
  have hle : f.units o ≤ f.units top := f.units_strictMono.monotone (by omega)
  have hnext := f.units_succ top
  have hround : f.nearest (f.units o + n) 1 ≤ top := by
    rw [nearest_le_iff hf Nat.one_pos (by omega)]
    left
    omega
  omega

end BinaryFormat

open BinaryFormat

namespace Single

variable {a b : Single}

theorem gap_below_infinity : binary32.gap (binary32.infinity - 1) = 2 ^ 253 := by
  decide

theorem natAbs_units (a : Single) : a.units.natAbs = a.magnitude := by
  rw [units]
  cases a.negative <;> simp

theorem IsInt.magnitude_eq {n : Int} (h : a.IsInt n) : a.magnitude = n.natAbs * 2 ^ binary32.scale := by
  rw [← natAbs_units, h.units_eq, Int.natAbs_mul]
  rfl

theorem quiet_isFinite (h : a.isNaN = true) : a.quiet.isFinite = false := by
  rw [isNaN, decide_eq_true_eq, ordinal] at h
  have hle : a.bits.toNat % 2 ^ 31 ≤ (a.bits.toNat ||| 0x00400000) % 2 ^ 31 := by
    rw [Nat.or_mod_two_pow]
    exact Nat.left_le_or
  have hquiet : a.quiet.ordinal = (a.bits.toNat ||| 0x00400000) % 2 ^ 31 := by
    rw [ordinal, quiet, UInt32.toNat_or]
    rfl
  rw [isFinite, hquiet, decide_eq_false_iff_not]
  omega

theorem isFinite_add_of_finite (ha : a.isFinite = true) (hb : b.isFinite = true) (h : b.magnitude < 2 ^ 252) :
    (a + b).isFinite = true := by
  have hsum : (a.units + b.units).natAbs ≤ a.magnitude + b.magnitude := by
    rw [← natAbs_units, ← natAbs_units]
    exact Int.natAbs_add_le _ _
  have hnear : binary32.nearest (a.magnitude + b.magnitude) 1 < binary32.infinity := by
    apply nearest_add_lt fractionBits_pos (isFinite_iff.mp ha)
    rw [gap_below_infinity]
    omega
  rw [add_eq_addFinite ha hb, addFinite]
  split_ifs
  · exact isFinite_ofOrdinal _ (by decide)
  · exact isFinite_ofOrdinal _ ((nearest_mono fractionBits_pos Nat.one_pos hsum).trans_lt hnear)

theorem isFinite_add_of_not_finite (ha : a.isFinite = false) (hb : b.isFinite = true) :
    (a + b).isFinite = false := by
  show (add a b).isFinite = false
  rw [add]
  cases hnan : a.isNaN with
  | true => exact quiet_isFinite hnan
  | false =>
    rw [not_isNaN hb, ha, hb]
    exact ha

theorem isFinite_add (hb : b.isFinite = true) (h : b.magnitude < 2 ^ 252) : (a + b).isFinite = a.isFinite := by
  cases ha : a.isFinite with
  | true => exact isFinite_add_of_finite ha hb h
  | false => exact isFinite_add_of_not_finite ha hb

end Single

end VoxelOctree
