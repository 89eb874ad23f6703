import VoxelOctree.Proofs.ClosePairs
import VoxelOctree.Proofs.Double

/-!
The shortest decimal of a single-precision number, read in double precision and then rounded again, is that number.

What is rounded twice can come out wrong only where the decimal and the double-precision number lie on different sides
of the middle between two neighbours. A decimal that close to a middle, but not on it, stands on a coarse grid, and the
decimals of coarse grids close to a middle can be listed.
-/

namespace VoxelOctree

open BinaryFormat Double

namespace Decimal

def point (d : Decimal) : Decimal :=
  if 0 ≤ d.exponent then ⟨d.digits * 10 ^ (d.exponent.toNat + 1), -1⟩ else d

theorem exponent_point (d : Decimal) : d.point.exponent = min d.exponent (-1) := by
  rw [point]
  split_ifs with he
  · show -1 = _
    omega
  · omega

theorem digits_point_pos {d : Decimal} (h : 0 < d.digits) : 0 < d.point.digits := by
  rw [point]
  split_ifs
  · exact Nat.mul_pos h (Nat.pow_pos (by decide))
  · exact h

theorem scaled_point (d : Decimal) : d.point.scaled * d.denominator = d.scaled * d.point.denominator := by
  rw [point]
  split_ifs with he
  · show d.digits * 10 ^ (d.exponent.toNat + 1) * 10 ^ 0 * 2 ^ binary32.scale * 10 ^ (-d.exponent).toNat =
      d.digits * 10 ^ d.exponent.toNat * 2 ^ binary32.scale * 10 ^ 1
    rw [show (-d.exponent).toNat = 0 by omega]
    ring
  · rfl

end Decimal

def Double.SameSide (y : Nat) (d : Decimal) (u : Nat) : Prop :=
  (2 * units y < u * perSingle ↔ 2 * d.scaled < u * d.denominator) ∧
    (2 * units y = u * perSingle ↔ 2 * d.scaled = u * d.denominator)
  deriving Decidable

def middleGrid (s : Nat) : Int :=
  ((s : Int) - 150) * 30103 / 100000 + 1

def middleStep (s : Nat) : Nat :=
  2 ^ s * 10 ^ (-middleGrid s).toNat

def decimalStep (s : Nat) : Nat :=
  2 ^ 150 * 10 ^ (middleGrid s).toNat

/-- The odd multiples of half of `2 ^ s` with a point of the grid close by. -/
def nearMiddles (s : Nat) : List (Nat × Nat) :=
  closePairs (middleStep s / 2 ^ 25) 64 (2 ^ 25) (middleStep s) (decimalStep s)

def Decimal.ReadsBeside (d : Decimal) (u : Nat) : Prop :=
  (d.digits ≤ 2 ^ 53 → SameSide (ofDecimal d) d u) ∧ (d.point.digits ≤ 2 ^ 53 → SameSide (ofDecimal d.point) d u)
  deriving Decidable

theorem readsBeside_nearMiddles : ∀ s < 254, ∀ q ∈ nearMiddles s,
    q.1 % 2 = 1 ∧ q.1 < 2 ^ 25 ∧ (s = 0 ∨ 2 ^ 24 ≤ q.1) → q.2 < 10 ^ 8 ∧ ∀ j < 8, q.2 % 10 ^ j = 0 →
      (⟨q.2 / 10 ^ j, middleGrid s + (j : Nat)⟩ : Decimal).ReadsBeside (q.1 * 2 ^ s) := by
  decide +kernel

theorem decimalStep_le : ∀ s < 254,
    2 ^ 150 * 10 ^ (middleGrid s - 1).toNat ≤ 2 ^ s * 10 ^ (-(middleGrid s - 1)).toNat := by
  decide +kernel

theorem middleStep_lt : ∀ s < 254, middleStep s < decimalStep s := by
  decide +kernel

section

variable {d : Decimal} {s m k o : Nat} {y : Nat}

def Decimal.CloseTo (d : Decimal) (u : Nat) : Prop :=
  2 ^ 50 * (2 * d.scaled) ≤ 2 ^ 50 * (u * d.denominator) + u * d.denominator ∧
    2 ^ 50 * (u * d.denominator) ≤ 2 ^ 50 * (2 * d.scaled) + u * d.denominator

theorem perSingle_pos : 0 < perSingle :=
  Nat.two_pow_pos _

namespace Double.Approximates

theorem sameSide_of_far (h : Approximates y d) {u : Nat} (hfar : ¬ d.CloseTo u) : SameSide y d u := by
  have hP := perSingle_pos
  have hside : 2 ^ 50 * (2 * d.scaled) + u * d.denominator < 2 ^ 50 * (u * d.denominator) ∨
      2 ^ 50 * (u * d.denominator) + u * d.denominator < 2 ^ 50 * (2 * d.scaled) := by
    unfold Decimal.CloseTo at hfar
    omega
  have hupper := h.upper
  have hlower := h.lower
  unfold SameSide
  rcases hside with hside | hside
  · have hlt : 2 * units y < u * perSingle := by
      apply Nat.lt_of_mul_lt_mul_right (a := d.denominator)
      have := Nat.mul_lt_mul_of_pos_right hside hP
      linarith
    omega
  · have hlt : u * perSingle < 2 * units y := by
      apply Nat.lt_of_mul_lt_mul_right (a := d.denominator)
      have := Nat.mul_lt_mul_of_pos_right hside hP
      linarith
    omega

theorem sameSide_of_middle (h : Approximates y d) (hm : m ≤ 2 ^ 25) (hs : s < 254)
    (hmiddle : 2 * d.scaled = m * 2 ^ s * d.denominator) : SameSide y d (m * 2 ^ s) := by
  have hunits : 2 * units y = m * 2 ^ s * perSingle := by
    apply Nat.eq_of_mul_eq_mul_right d.denominator_pos
    calc 2 * units y * d.denominator = 2 * (units y * d.denominator) := by ring
      _ = 2 * d.scaled * perSingle := by rw [h.exact hm (by omega) hmiddle, Nat.mul_assoc]
      _ = m * 2 ^ s * perSingle * d.denominator := by rw [hmiddle, Nat.mul_right_comm]
  unfold SameSide
  omega

end Double.Approximates

theorem mem_nearMiddles (hm : m ≤ 2 ^ 25) (hs : s < 254) (hgrid : middleGrid s ≤ d.exponent)
    (hclose : d.CloseTo (m * 2 ^ s)) (hne : 2 * d.scaled ≠ m * 2 ^ s * d.denominator) :
    (m, d.digits * 10 ^ (d.exponent - middleGrid s).toNat) ∈ nearMiddles s := by
  have hpow : 10 ^ d.exponent.toNat * 10 ^ (-middleGrid s).toNat =
      10 ^ (middleGrid s).toNat * 10 ^ (d.exponent - middleGrid s).toNat * 10 ^ (-d.exponent).toNat := by
    rw [← Nat.pow_add, ← Nat.pow_add, ← Nat.pow_add]
    congr 1
    omega
  have hdecimal : 2 * d.scaled * 10 ^ (-middleGrid s).toNat =
      decimalStep s * (d.digits * 10 ^ (d.exponent - middleGrid s).toNat) * d.denominator := by
    calc 2 * d.scaled * 10 ^ (-middleGrid s).toNat =
          2 * 2 ^ binary32.scale * d.digits * (10 ^ d.exponent.toNat * 10 ^ (-middleGrid s).toNat) := by
          rw [Decimal.scaled, Decimal.numerator]
          ring
      _ = 2 * 2 ^ binary32.scale * 10 ^ (middleGrid s).toNat *
          (d.digits * 10 ^ (d.exponent - middleGrid s).toNat) * d.denominator := by
          rw [hpow, Decimal.denominator]
          ring
  have hmiddle : m * 2 ^ s * d.denominator * 10 ^ (-middleGrid s).toNat = middleStep s * m * d.denominator := by
    rw [middleStep]
    ring
  have hden := d.denominator_pos
  have hpos : 0 < 10 ^ (-middleGrid s).toNat := Nat.pow_pos (by decide)
  have hm' := Nat.mul_le_mul_left (middleStep s) hm
  have hupper : 2 ^ 50 * (decimalStep s * (d.digits * 10 ^ (d.exponent - middleGrid s).toNat)) ≤
      2 ^ 50 * (middleStep s * m) + middleStep s * m := by
    apply Nat.le_of_mul_le_mul_right _ hden
    linarith [Nat.mul_le_mul_right (10 ^ (-middleGrid s).toNat) hclose.1]
  have hlower : 2 ^ 50 * (middleStep s * m) ≤
      2 ^ 50 * (decimalStep s * (d.digits * 10 ^ (d.exponent - middleGrid s).toNat)) + middleStep s * m := by
    apply Nat.le_of_mul_le_mul_right _ hden
    linarith [Nat.mul_le_mul_right (10 ^ (-middleGrid s).toNat) hclose.2]
  apply mem_closePairs 64 ((Nat.div_le_self _ _).trans_lt (middleStep_lt s hs)) hm
  · intro h
    apply hne
    apply Nat.eq_of_mul_eq_mul_right hpos
    rw [hdecimal, hmiddle, h]
  · omega
  · omega

theorem middleGrid_le (hd : Single.ShortestFor o d) (ho : 0 < o) (hlt : o < binary32.infinity)
    (hk : k + 1 = o ∨ k = o) (hs : s < 254) (hgap : binary32.gap k = 2 ^ s) (hm : m ≤ 2 ^ 25)
    (hmiddle : binary32.units k + binary32.units (k + 1) = m * 2 ^ s) (hclose : d.CloseTo (m * 2 ^ s)) :
    middleGrid s ≤ d.exponent := by
  -- on a finer grid the shortest decimal keeps a quarter of the gap away from its middle
  by_contra hfine
  have hstep : 2 * Single.gridStep d.exponent ≤ binary32.gap k * d.denominator := by
    have hpow : 10 ^ d.exponent.toNat * 10 ^ (-(middleGrid s - 1)).toNat ≤
        10 ^ (middleGrid s - 1).toNat * 10 ^ (-d.exponent).toNat := by
      rw [← Nat.pow_add, ← Nat.pow_add]
      exact Nat.pow_le_pow_right (by decide) (by omega)
    have hpos : 0 < 10 ^ (-(middleGrid s - 1)).toNat := Nat.pow_pos (by decide)
    apply Nat.le_of_mul_le_mul_right _ hpos
    calc 2 * Single.gridStep d.exponent * 10 ^ (-(middleGrid s - 1)).toNat =
          2 ^ 150 * (10 ^ d.exponent.toNat * 10 ^ (-(middleGrid s - 1)).toNat) := by
          rw [Single.gridStep, show 2 ^ 150 = 2 * 2 ^ binary32.scale from rfl]
          ring
      _ ≤ 2 ^ 150 * (10 ^ (middleGrid s - 1).toNat * 10 ^ (-d.exponent).toNat) := Nat.mul_le_mul_left _ hpow
      _ = 2 ^ 150 * 10 ^ (middleGrid s - 1).toNat * d.denominator := by rw [Decimal.denominator, Nat.mul_assoc]
      _ ≤ 2 ^ s * 10 ^ (-(middleGrid s - 1)).toNat * d.denominator :=
          Nat.mul_le_mul_right _ (decimalStep_le s hs)
      _ = binary32.gap k * d.denominator * 10 ^ (-(middleGrid s - 1)).toNat := by
          rw [hgap, Nat.mul_right_comm]
  obtain ⟨hupper, hlower⟩ := hd.close ho hlt hk hstep
  have hwidth : m * 2 ^ s * d.denominator ≤ 2 ^ 25 * (2 ^ s * d.denominator) := by
    rw [Nat.mul_assoc]
    exact Nat.mul_le_mul_right _ hm
  have hnumber : 2 * (binary32.units o * d.denominator) = m * 2 ^ s * d.denominator + 2 ^ s * d.denominator ∨
      2 * (binary32.units o * d.denominator) + 2 ^ s * d.denominator = m * 2 ^ s * d.denominator := by
    have hnext := binary32.units_succ k
    rw [← hmiddle, ← hgap]
    rcases hk with rfl | rfl
    · left
      rw [hnext]
      ring
    · right
      rw [hnext]
      ring
  have hpos : 0 < 2 ^ s * d.denominator := Nat.mul_pos (Nat.two_pow_pos s) d.denominator_pos
  rw [hgap] at hupper hlower
  unfold Decimal.CloseTo at hclose
  omega

theorem exists_middle (hk : k < binary32.infinity) : ∃ s r, s < 254 ∧ r < 2 ^ 24 ∧ (s = 0 ∨ 2 ^ 23 ≤ r) ∧
    binary32.gap k = 2 ^ s ∧ binary32.units k + binary32.units (k + 1) = (2 * r + 1) * 2 ^ s := by
  obtain ⟨r, hplace, hr, hs⟩ := exists_place (f := binary32) k
  have hlt : k / 2 ^ binary32.fractionBits < 255 := Nat.div_lt_of_lt_mul (hk.trans_eq (Nat.mul_comm _ _))
  refine ⟨k / 2 ^ binary32.fractionBits - 1, r, by omega, hr, hs, rfl, ?_⟩
  rw [units_succ, gap]
  generalize k / 2 ^ binary32.fractionBits - 1 = s at *
  rw [hplace, units_add hr.le hs]
  ring

theorem Single.ShortestFor.digits_pos (hd : ShortestFor o d) (ho : 0 < o) : 0 < d.digits := by
  apply Nat.pos_of_ne_zero
  intro hzero
  have hreads := hd.reads
  rw [Decimal.ReadsAs, Decimal.scaled, Decimal.numerator, hzero, Nat.zero_mul, Nat.zero_mul] at hreads
  have hle : binary32.nearest 0 d.denominator ≤ 0 := by
    rw [nearest_le_iff BinaryFormat.fractionBits_pos d.denominator_pos (by decide)]
    left
    exact Nat.mul_pos (by decide) d.denominator_pos
  omega

theorem Single.ShortestFor.approximates (hd : ShortestFor o d) (ho : 0 < o) {p : Decimal} (hp : p = d ∨ p = d.point)
    (hdigits : p.digits ≤ 2 ^ 53) : Approximates (ofDecimal p) d := by
  have hpos := hd.digits_pos ho
  have hlowest := hd.lowest
  have hhighest := hd.highest
  rcases hp with rfl | rfl
  · exact approximates_ofDecimal hpos hdigits hlowest (by omega)
  · have hexponent := d.exponent_point
    exact (approximates_ofDecimal (Decimal.digits_point_pos hpos) hdigits (by omega) (by omega)).congr d.scaled_point

theorem sameSide (hd : Single.ShortestFor o d) (ho : 0 < o) (hlt : o < binary32.infinity) (hk : k + 1 = o ∨ k = o)
    {p : Decimal} (hp : p = d ∨ p = d.point) (hdigits : p.digits ≤ 2 ^ 53) :
    SameSide (ofDecimal p) d (binary32.units k + binary32.units (k + 1)) := by
  have happrox := hd.approximates ho hp hdigits
  obtain ⟨s, r, hs, hr, hplace, hgap, hmiddle⟩ := exists_middle (show k < binary32.infinity by omega)
  rw [hmiddle]
  have hm : 2 * r + 1 ≤ 2 ^ 25 := by omega
  by_cases hclose : d.CloseTo ((2 * r + 1) * 2 ^ s)
  · by_cases htie : 2 * d.scaled = (2 * r + 1) * 2 ^ s * d.denominator
    · exact happrox.sameSide_of_middle hm hs htie
    · -- the decimal is one of those listed, up to zeros at the end of its digits
      have hgrid := middleGrid_le hd ho hlt hk hs hgap hm hmiddle hclose
      obtain ⟨hbound, hlisted⟩ := readsBeside_nearMiddles s hs _ (mem_nearMiddles hm hs hgrid hclose htie)
        ⟨by omega, by omega, by omega⟩
      obtain ⟨j, hj⟩ := Int.eq_ofNat_of_zero_le (Int.sub_nonneg.mpr hgrid)
      rw [hj, Int.toNat_natCast] at hbound hlisted
      have hten : 0 < 10 ^ j := Nat.pow_pos (by decide)
      have hj8 : j < 8 := by
        rw [← Nat.pow_lt_pow_iff_right (show 1 < 10 by decide)]
        exact (Nat.le_mul_of_pos_left _ (hd.digits_pos ho)).trans_lt hbound
      have hbeside := hlisted j hj8 (Nat.mul_mod_left _ _)
      rw [Nat.mul_div_cancel _ hten, show middleGrid s + (j : Int) = d.exponent by omega] at hbeside
      rcases hp with rfl | rfl
      · exact hbeside.1 hdigits
      · exact hbeside.2 hdigits
  · exact happrox.sameSide_of_far hclose

theorem nearest_ofDecimal (hd : Single.ShortestFor o d) (ho : 0 < o) (hlt : o < binary32.infinity) {p : Decimal}
    (hp : p = d ∨ p = d.point) (hdigits : p.digits ≤ 2 ^ 53) :
    binary32.nearest (units (ofDecimal p)) perSingle = o := by
  have hreads := hd.reads
  apply Nat.le_antisymm
  · have hside := sameSide hd ho hlt (.inr rfl) hp hdigits
    rw [nearest_le_iff BinaryFormat.fractionBits_pos perSingle_pos hlt, hside.1, hside.2,
      ← nearest_le_iff BinaryFormat.fractionBits_pos d.denominator_pos hlt]
    exact hreads.le
  · obtain ⟨k, rfl⟩ : ∃ k, o = k + 1 := ⟨o - 1, by omega⟩
    have hside := sameSide hd ho hlt (.inl rfl) hp hdigits
    show k < _
    rw [← Nat.not_le, nearest_le_iff BinaryFormat.fractionBits_pos perSingle_pos (by omega), hside.1, hside.2,
      ← nearest_le_iff BinaryFormat.fractionBits_pos d.denominator_pos (by omega)]
    show ¬ binary32.nearest d.scaled d.denominator ≤ k
    rw [hreads]
    exact Nat.not_succ_le_self k

end

theorem Single.toSingle_ofDecimal {a : Single} (hfinite : a.isFinite = true) {p : Decimal}
    (hp : p = a.shortest ∨ p = a.shortest.point) (hdigits : p.digits ≤ 2 ^ 53) :
    Double.toSingle a.negative (ofDecimal p) = a := by
  have hlt := isFinite_iff.mp hfinite
  have hnearest : binary32.nearest (Double.units (ofDecimal p)) perSingle = a.ordinal := by
    by_cases ho : 0 < a.ordinal
    · exact nearest_ofDecimal (shortestFor_shortest hfinite ho) ho hlt hp hdigits
    · have hzero : a.ordinal = 0 := by omega
      rw [shortest_of_zero hzero] at hp
      rw [hzero]
      rcases hp with rfl | rfl <;> decide +kernel
  rw [Double.toSingle]
  exact (congrArg (ofOrdinal a.negative) hnearest).trans a.ofOrdinal_ordinal

end VoxelOctree
