import VoxelOctree.Double
import VoxelOctree.Proofs.Single.Shortest

/-!
The double-precision number that is computed from a decimal. The digits and the power of ten are rounded first, then
their product or quotient. Over the range of single precision the error stays below one part in `2 ^ 51`, and a decimal
of few binary digits comes out exact.
-/

namespace VoxelOctree

open BinaryFormat

namespace Double

variable {d : Decimal} {n m s : Nat}

def ofDecimal (d : Decimal) : Nat :=
  if 0 ≤ d.exponent then mul (ofRatio d.digits 1) (tenPow d.exponent.toNat)
  else div (ofRatio d.digits 1) (tenPow (-d.exponent).toNat)

theorem fractionBits_pos : 0 < binary64.fractionBits := by
  decide

def Rounded (a b : Nat) : Prop :=
  2 ^ 53 * a ≤ 2 ^ 53 * b + a ∧ 2 ^ 53 * b ≤ 2 ^ 53 * a + b
  deriving Decidable

namespace Rounded

variable {a b c : Nat}

theorem symm (h : Rounded a b) : Rounded b a :=
  And.symm h

theorem mul_left (h : Rounded a b) (k : Nat) : Rounded (k * a) (k * b) := by
  have hupper := Nat.mul_le_mul_left k h.1
  have hlower := Nat.mul_le_mul_left k h.2
  constructor <;> linarith

theorem trans (h : Rounded a b) (h' : Rounded b c) : 2 ^ 51 * a ≤ 2 ^ 51 * c + c ∧ 2 ^ 51 * c ≤ 2 ^ 51 * a + c := by
  unfold Rounded at h h'
  omega

end Rounded

theorem rounded_tenPow : ∀ n < 56, Rounded (10 ^ n * 2 ^ binary64.scale) (units (tenPow n)) := by
  decide +kernel

theorem units_tenPow_range : ∀ n < 56,
    2 ^ binary64.scale ≤ units (tenPow n) ∧ units (tenPow n) ≤ 2 ^ 184 * 2 ^ binary64.scale := by
  decide +kernel

theorem units_tenPow : ∀ n < 23, units (tenPow n) = 10 ^ n * 2 ^ binary64.scale := by
  decide +kernel

theorem units_ofRatio (hn : n ≤ 2 ^ 53) : units (ofRatio n 1) = n * 2 ^ binary64.scale := by
  have hfinite : n * 2 ^ binary64.scale < binary64.units binary64.infinity := by
    calc n * 2 ^ binary64.scale ≤ 2 ^ 53 * 2 ^ binary64.scale := Nat.mul_le_mul_right _ hn
      _ < binary64.units binary64.infinity := by decide +kernel
  have h := (units_nearest fractionBits_pos Nat.one_pos hn hfinite).2
  rwa [Nat.mul_one] at h

def perSingle : Nat :=
  2 ^ (binary64.scale - binary32.scale)

theorem scaled_mul_perSingle (d : Decimal) :
    d.scaled * perSingle = d.digits * 10 ^ d.exponent.toNat * 2 ^ binary64.scale := by
  rw [Decimal.scaled, Decimal.numerator, perSingle, Nat.mul_assoc _ (2 ^ binary32.scale), ← Nat.pow_add,
    Nat.add_sub_cancel' (by decide)]

def highest : Nat :=
  1400 * 2 ^ 52

theorem units_highest : 2 ^ 240 * 2 ^ binary64.scale ≤ units highest := by
  decide +kernel

theorem rounded_nearest {num den : Nat} (hd : 0 < den) (hlow : 2 ^ 52 * den ≤ num)
    (hhigh : num ≤ units highest * den) : binary64.nearest num den < binary64.infinity ∧
      Rounded num (units (binary64.nearest num den) * den) := by
  have hlowest := nearest_units fractionBits_pos hd (show 2 ^ 52 < binary64.infinity by decide +kernel)
  have hhighest := nearest_units fractionBits_pos hd (show highest < binary64.infinity by decide +kernel)
  have hnear : 2 ^ 52 ≤ binary64.nearest num den := by
    rw [show binary64.units (2 ^ 52) = 2 ^ 52 by decide +kernel] at hlowest
    rw [← hlowest]
    exact nearest_mono fractionBits_pos hd hlow
  have hlt : binary64.nearest num den < binary64.infinity := by
    refine lt_of_le_of_lt ?_ (show highest < binary64.infinity by decide +kernel)
    rw [← hhighest]
    exact nearest_mono fractionBits_pos hd hhigh
  refine ⟨hlt, ?_⟩
  have herror := nearest_error fractionBits_pos hd rfl hlt hnear
  rw [show 2 * 2 ^ binary64.fractionBits = 2 ^ 53 from rfl] at herror
  unfold Rounded units
  omega

section

variable {z t p : Nat} (hz : 2 ^ 240 ≤ z) (hh : 2 ^ 240 * z ≤ units highest) (ht : Rounded (p * z) t)
  (hr : z ≤ t ∧ t ≤ 2 ^ 184 * z) (hpos : 0 < n) (hn : n ≤ 2 ^ 53)
include hz hh ht hr hpos hn

theorem product_error : binary64.nearest (n * z * t) z < binary64.infinity ∧
    2 ^ 51 * units (binary64.nearest (n * z * t) z) ≤ 2 ^ 51 * (n * p * z) + n * p * z ∧
    2 ^ 51 * (n * p * z) ≤ 2 ^ 51 * units (binary64.nearest (n * z * t) z) + n * p * z := by
  have hzpos : 0 < z := by omega
  have hlow : 2 ^ 52 * z ≤ n * z * t := by
    calc 2 ^ 52 * z ≤ t * z := Nat.mul_le_mul_right z (by omega)
      _ ≤ n * (t * z) := Nat.le_mul_of_pos_left _ hpos
      _ = n * z * t := by ring
  have hhigh : n * z * t ≤ units highest * z := by
    calc n * z * t ≤ 2 ^ 53 * z * (2 ^ 184 * z) := Nat.mul_le_mul (Nat.mul_le_mul_right z hn) hr.2
      _ = 2 ^ 237 * z * z := by ring
      _ ≤ units highest * z := Nat.mul_le_mul_right z (by omega)
  obtain ⟨hlt, hround⟩ := rounded_nearest hzpos hlow hhigh
  refine ⟨hlt, ?_⟩
  obtain ⟨hle, hge⟩ := hround.symm.trans (ht.mul_left (n * z)).symm
  constructor
  · apply Nat.le_of_mul_le_mul_right _ hzpos
    linarith
  · apply Nat.le_of_mul_le_mul_right _ hzpos
    linarith

theorem quotient_error : binary64.nearest (n * z * z) t < binary64.infinity ∧
    2 ^ 51 * (units (binary64.nearest (n * z * z) t) * p) ≤ 2 ^ 51 * (n * z) + n * z ∧
    2 ^ 51 * (n * z) ≤ 2 ^ 51 * (units (binary64.nearest (n * z * z) t) * p) + n * z := by
  have hzpos : 0 < z := by omega
  have htpos : 0 < t := by omega
  have hlow : 2 ^ 52 * t ≤ n * z * z := by
    calc 2 ^ 52 * t ≤ 2 ^ 52 * (2 ^ 184 * z) := Nat.mul_le_mul_left _ hr.2
      _ = 2 ^ 236 * z := by ring
      _ ≤ z * z := Nat.mul_le_mul_right z (by omega)
      _ ≤ n * (z * z) := Nat.le_mul_of_pos_left _ hpos
      _ = n * z * z := by ring
  have hhigh : n * z * z ≤ units highest * t := by
    refine Nat.mul_le_mul ?_ hr.1
    calc n * z ≤ 2 ^ 53 * z := Nat.mul_le_mul_right z hn
      _ ≤ units highest := by omega
  obtain ⟨hlt, hround⟩ := rounded_nearest htpos hlow hhigh
  refine ⟨hlt, ?_⟩
  obtain ⟨hle, hge⟩ := (ht.mul_left (units (binary64.nearest (n * z * z) t))).trans hround.symm
  constructor
  · apply Nat.le_of_mul_le_mul_right _ hzpos
    linarith
  · apply Nat.le_of_mul_le_mul_right _ hzpos
    linarith

end

theorem ofDecimal_error (hpos : 0 < d.digits) (hdigits : d.digits ≤ 2 ^ 53) (hlow : -55 ≤ d.exponent)
    (hhigh : d.exponent ≤ 55) : ofDecimal d < binary64.infinity ∧
      2 ^ 51 * (units (ofDecimal d) * d.denominator) ≤ 2 ^ 51 * (d.scaled * perSingle) + d.scaled * perSingle ∧
      2 ^ 51 * (d.scaled * perSingle) ≤ 2 ^ 51 * (units (ofDecimal d) * d.denominator) + d.scaled * perSingle := by
  have hz : 2 ^ 240 ≤ 2 ^ binary64.scale := Nat.pow_le_pow_right (by decide) (by decide)
  rw [ofDecimal, scaled_mul_perSingle, Decimal.denominator]
  split_ifs with he
  · have hn : d.exponent.toNat < 56 := by omega
    rw [show (-d.exponent).toNat = 0 by omega, Nat.pow_zero, Nat.mul_one, mul, units_ofRatio hdigits]
    exact product_error hz units_highest (rounded_tenPow _ hn) (units_tenPow_range _ hn) hpos hdigits
  · have hn : (-d.exponent).toNat < 56 := by omega
    rw [show d.exponent.toNat = 0 by omega, Nat.pow_zero, Nat.mul_one, div, units_ofRatio hdigits]
    exact quotient_error hz units_highest (rounded_tenPow _ hn) (units_tenPow_range _ hn) hpos hdigits

theorem lt_of_five_pow_dvd {k : Nat} (hpos : 0 < m) (hm : m ≤ 2 ^ 53) (h : 5 ^ n ∣ m * 2 ^ k) : n < 23 := by
  have hdvd : 5 ^ n ∣ m := Nat.Coprime.dvd_of_dvd_mul_right (Nat.Coprime.pow n k (by decide)) h
  by_contra hn
  have hle : 5 ^ 23 ≤ 5 ^ n := Nat.pow_le_pow_right (by decide) (by omega)
  have := (hle.trans (Nat.le_of_dvd hpos hdvd)).trans hm
  exact absurd this (by decide)

def halfSingle : Nat :=
  binary64.scale - binary32.scale - 1

theorem two_mul_halfSingle : 2 * 2 ^ halfSingle = perSingle := by
  rw [halfSingle, perSingle, ← Nat.pow_succ', Nat.succ_eq_add_one, Nat.sub_add_cancel (by decide)]

theorem scaled_of_middle (h : 2 * d.scaled = m * 2 ^ s * d.denominator) :
    d.scaled * perSingle = m * 2 ^ (s + halfSingle) * d.denominator := by
  calc d.scaled * perSingle = 2 * d.scaled * 2 ^ halfSingle := by
        rw [← two_mul_halfSingle]
        ring
    _ = m * 2 ^ (s + halfSingle) * d.denominator := by
        rw [h, Nat.pow_add]
        ring

theorem units_nearest_middle (hm : m ≤ 2 ^ 25) (hs : s ≤ 253) {den : Nat} (hden : 0 < den) :
    units (binary64.nearest (m * 2 ^ (s + halfSingle) * den) den) = m * 2 ^ (s + halfSingle) := by
  refine (units_nearest fractionBits_pos hden (hm.trans (by decide)) ?_).2
  calc m * 2 ^ (s + halfSingle) ≤ 2 ^ 25 * 2 ^ (253 + halfSingle) :=
        Nat.mul_le_mul hm (Nat.pow_le_pow_right (by decide) (by omega))
    _ < binary64.units binary64.infinity := by decide +kernel

/-- A decimal in the middle between two single-precision numbers comes out exact. -/
theorem ofDecimal_exact (hpos : 0 < d.digits) (hdigits : d.digits ≤ 2 ^ 53) (hm : m ≤ 2 ^ 25) (hs : s ≤ 253)
    (h : 2 * d.scaled = m * 2 ^ s * d.denominator) :
    units (ofDecimal d) * d.denominator = d.scaled * perSingle := by
  have hscaled := scaled_of_middle h
  suffices hunits : units (ofDecimal d) = m * 2 ^ (s + halfSingle) by rw [hunits, hscaled]
  rw [scaled_mul_perSingle] at hscaled
  have hz : 0 < 2 ^ binary64.scale := Nat.two_pow_pos _
  rw [ofDecimal]
  split_ifs with he
  · rw [Decimal.denominator, show (-d.exponent).toNat = 0 by omega, Nat.pow_zero, Nat.mul_one] at hscaled
    -- the significand holds the factors five of the power, which is therefore not rounded
    have hn : d.exponent.toNat < 23 := by
      have hmpos : 0 < m := by
        apply Nat.pos_of_ne_zero
        rintro rfl
        have : 0 < d.digits * 10 ^ d.exponent.toNat * 2 ^ binary64.scale :=
          Nat.mul_pos (Nat.mul_pos hpos (Nat.pow_pos (by decide))) hz
        rw [hscaled, Nat.zero_mul] at this
        exact absurd this (Nat.lt_irrefl 0)
      apply lt_of_five_pow_dvd hmpos (hm.trans (by decide)) (k := s + halfSingle)
      rw [← hscaled, show 10 = 5 * 2 from rfl, Nat.mul_pow]
      exact ((Nat.dvd_mul_right _ _).trans (Nat.dvd_mul_left _ _)).trans (Nat.dvd_mul_right _ _)
    have hnum : d.digits * 2 ^ binary64.scale * (10 ^ d.exponent.toNat * 2 ^ binary64.scale) =
        m * 2 ^ (s + halfSingle) * 2 ^ binary64.scale := by
      rw [← hscaled]
      ring
    rw [mul, units_ofRatio hdigits, units_tenPow _ hn, hnum, units_nearest_middle hm hs hz]
  · rw [show d.exponent.toNat = 0 by omega, Nat.pow_zero, Nat.mul_one, Decimal.denominator] at hscaled
    -- here the digits hold them
    have hn : (-d.exponent).toNat < 23 := by
      apply lt_of_five_pow_dvd hpos hdigits (k := binary64.scale)
      rw [hscaled, show 10 = 5 * 2 from rfl, Nat.mul_pow]
      exact (Nat.dvd_mul_right _ _).trans (Nat.dvd_mul_left _ _)
    have hden : 0 < 10 ^ (-d.exponent).toNat * 2 ^ binary64.scale := Nat.mul_pos (Nat.pow_pos (by decide)) hz
    rw [div, units_ofRatio hdigits, units_tenPow _ hn, hscaled, Nat.mul_assoc, units_nearest_middle hm hs hden]

structure Approximates (y : Nat) (d : Decimal) : Prop where
  upper : 2 ^ 51 * (units y * d.denominator) ≤ 2 ^ 51 * (d.scaled * perSingle) + d.scaled * perSingle
  lower : 2 ^ 51 * (d.scaled * perSingle) ≤ 2 ^ 51 * (units y * d.denominator) + d.scaled * perSingle
  exact {m s : Nat} : m ≤ 2 ^ 25 → s ≤ 253 → 2 * d.scaled = m * 2 ^ s * d.denominator →
    units y * d.denominator = d.scaled * perSingle

theorem approximates_ofDecimal (hpos : 0 < d.digits) (hdigits : d.digits ≤ 2 ^ 53) (hlow : -55 ≤ d.exponent)
    (hhigh : d.exponent ≤ 55) : Approximates (ofDecimal d) d := by
  obtain ⟨-, hupper, hlower⟩ := ofDecimal_error hpos hdigits hlow hhigh
  exact ⟨hupper, hlower, ofDecimal_exact hpos hdigits⟩

theorem Approximates.congr {y : Nat} {p : Decimal} (h : Approximates y p)
    (hvalue : p.scaled * d.denominator = d.scaled * p.denominator) : Approximates y d := by
  have hp := p.denominator_pos
  have hd := d.denominator_pos
  have hscaled : p.scaled * perSingle * d.denominator = d.scaled * perSingle * p.denominator := by
    rw [Nat.mul_right_comm, hvalue, Nat.mul_right_comm]
  refine ⟨?_, ?_, ?_⟩
  · apply Nat.le_of_mul_le_mul_right _ hp
    linarith [Nat.mul_le_mul_right d.denominator h.upper]
  · apply Nat.le_of_mul_le_mul_right _ hp
    linarith [Nat.mul_le_mul_right d.denominator h.lower]
  · intro m s hm hs hmiddle
    have hexact := h.exact hm hs (Nat.eq_of_mul_eq_mul_right hd (by linarith [congrArg (· * p.denominator) hmiddle]))
    apply Nat.eq_of_mul_eq_mul_right hp
    linarith [congrArg (· * d.denominator) hexact]

end Double

end VoxelOctree
