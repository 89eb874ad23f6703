import VoxelOctree.Proofs.Single
import VoxelOctree.Single.Shortest

namespace VoxelOctree

open BinaryFormat

theorem roundHalfEven_bounds (num : Nat) {den : Nat} (hd : 0 < den) :
    2 * num ≤ (2 * roundHalfEven num den + 1) * den ∧ 2 * roundHalfEven num den * den ≤ 2 * num + den := by
  constructor
  · have h := (roundHalfEven_le_iff hd).mp (Nat.le_refl (roundHalfEven num den))
    omega
  · cases hr : roundHalfEven num den with
    | zero => omega
    | succ r =>
      have h : ¬ roundHalfEven num den ≤ r := by omega
      rw [roundHalfEven_le_iff hd] at h
      have he : 2 * (r + 1) * den = (2 * r + 1) * den + den := by ring
      omega

theorem BinaryFormat.gap_pred {f : BinaryFormat} (hf : 0 < f.fractionBits) {o : Nat} (ho : 0 < o) :
    f.gap o = f.gap (o - 1) ∨ f.gap o = 2 * f.gap (o - 1) ∧ o % 2 = 0 := by
  obtain ⟨o, rfl⟩ := Nat.exists_eq_add_one.mpr ho
  have hp := Nat.two_pow_pos f.fractionBits
  simp only [gap, Nat.add_sub_cancel, Nat.succ_div]
  split_ifs with hdvd
  · cases hq : o / 2 ^ f.fractionBits with
    | zero => exact .inl rfl
    | succ q =>
      refine .inr ⟨?_, ?_⟩
      · rw [Nat.add_sub_cancel, Nat.add_sub_cancel, Nat.pow_succ, Nat.mul_comm]
      · have heven : 2 ∣ 2 ^ f.fractionBits := dvd_pow_self 2 hf.ne'
        exact Nat.mod_eq_zero_of_dvd (heven.trans hdvd)
  · exact .inl rfl

namespace Decimal

def scaled (d : Decimal) : Nat :=
  d.numerator * 2 ^ binary32.scale

theorem denominator_pos (d : Decimal) : 0 < d.denominator :=
  Nat.pow_pos (by decide)

def ReadsAs (d : Decimal) (ordinal : Nat) : Prop :=
  binary32.nearest d.scaled d.denominator = ordinal

theorem toSingle_eq_iff (d : Decimal) {a : Single} : d.toSingle a.negative = a ↔ d.ReadsAs a.ordinal := by
  have hlt : binary32.nearest d.scaled d.denominator < 0x80000000 :=
    (nearest_le_infinity _ _).trans_lt infinity_lt
  constructor
  · intro h
    exact (Single.ordinal_ofOrdinal _ hlt).symm.trans (congrArg Single.ordinal h)
  · intro h
    rw [toSingle, Single.ofRatio]
    exact (congrArg (Single.ofOrdinal a.negative) h).trans a.ofOrdinal_ordinal

end Decimal

namespace Single

def gridStep (e : Int) : Nat :=
  2 ^ binary32.scale * 10 ^ e.toNat

theorem gridStep_pos (e : Int) : 0 < gridStep e :=
  Nat.mul_pos (Nat.two_pow_pos _) (Nat.pow_pos (by decide))

theorem scaled_mk (d : Nat) (e : Int) : (⟨d, e⟩ : Decimal).scaled = d * gridStep e := by
  rw [Decimal.scaled, Decimal.numerator, gridStep, Nat.mul_assoc, Nat.mul_comm (10 ^ _)]

variable {o : Nat} {e : Int}

theorem near_readsAs (ho : 0 < o) (hlt : o < binary32.infinity)
    (hstep : gridStep e ≤ binary32.gap (o - 1) * 10 ^ (-e).toNat)
    (htie : gridStep e < binary32.gap (o - 1) * 10 ^ (-e).toNat ∨ o % 2 = 0) :
    (⟨roundHalfEven (binary32.units o * 10 ^ (-e).toNat) (gridStep e), e⟩ : Decimal).ReadsAs o := by
  have hden : 0 < 10 ^ (-e).toNat := Nat.pow_pos (by decide)
  obtain ⟨hupper, hlower⟩ := roundHalfEven_bounds (binary32.units o * 10 ^ (-e).toNat) (gridStep_pos e)
  have hgap : binary32.gap (o - 1) * 10 ^ (-e).toNat ≤ binary32.gap o * 10 ^ (-e).toNat :=
    Nat.mul_le_mul_right _ (gap_mono (Nat.sub_le o 1))
  have hprev : binary32.units o = binary32.units (o - 1) + binary32.gap (o - 1) := by
    rw [← units_succ, Nat.sub_add_cancel ho]
  rw [Decimal.ReadsAs, scaled_mk, Decimal.denominator]
  generalize roundHalfEven (binary32.units o * 10 ^ (-e).toNat) (gridStep e) = r at *
  generalize 10 ^ (-e).toNat = den at *
  have he : (2 * r + 1) * gridStep e = 2 * (r * gridStep e) + gridStep e := by ring
  have he' : 2 * r * gridStep e = 2 * (r * gridStep e) := by ring
  apply Nat.le_antisymm
  · rw [nearest_le_iff fractionBits_pos hden hlt, units_succ]
    have hmiddle : (binary32.units o + (binary32.units o + binary32.gap o)) * den =
        2 * (binary32.units o * den) + binary32.gap o * den := by ring
    omega
  · have hlast : o - 1 < binary32.nearest (r * gridStep e) den ↔ _ :=
      lt_nearest_iff fractionBits_pos hden (show o - 1 < binary32.infinity by omega)
    rw [Nat.sub_add_cancel ho] at hlast
    have hmiddle : (binary32.units (o - 1) + binary32.units o) * den + binary32.gap (o - 1) * den =
        2 * (binary32.units o * den) := by
      rw [hprev]
      ring
    have : o - 1 < binary32.nearest (r * gridStep e) den := by
      rw [hlast]
      omega
    omega

theorem shortestFrom_eq {a : Single} {count j : Nat} (hj : j < count)
    (hread : (⟨(gridNeighbours a.magnitude (e - j)).headD 0, e - j⟩ : Decimal).ReadsAs a.ordinal) :
    ∃ i ≤ j, ∃ d, (gridNeighbours a.magnitude (e - i)).find? (fun digits =>
        decide (Decimal.toSingle a.negative ⟨digits, e - i⟩ = a)) = some d ∧
      a.shortestFrom e count = ⟨d, e - i⟩ := by
  induction count generalizing e j with
  | zero => omega
  | succ count ih =>
    rw [shortestFrom]
    cases hfind : (gridNeighbours a.magnitude e).find? fun digits =>
        decide (Decimal.toSingle a.negative ⟨digits, e⟩ = a) with
    | some d =>
      refine ⟨0, Nat.zero_le _, d, ?_, ?_⟩
      · simpa using hfind
      · simp
    | none =>
      cases j with
      | zero =>
        rw [Int.natCast_zero, Int.sub_zero, ← Decimal.toSingle_eq_iff] at hread
        exact absurd (decide_eq_true hread) (List.find?_eq_none.mp hfind _ (List.mem_cons_self ..))
      | succ j =>
        have hshift : ∀ i : Nat, e - 1 - (i : Int) = e - ((i + 1 : Nat) : Int) := fun i => by omega
        rw [← hshift] at hread
        obtain ⟨i, hi, d, hd, hshort⟩ := ih (by omega) hread
        rw [hshift] at hd hshort
        exact ⟨i + 1, by omega, d, hd, hshort⟩

def boundOf (log : Nat) : Int :=
  ((log : Int) + 1 - binary32.scale) * 30103 / 100000 + 1

theorem gridStep_finest : ∀ log < 277,
    gridStep (boundOf log - 11) * 2 ^ 24 < 2 ^ log * 10 ^ (-(boundOf log - 11)).toNat := by
  decide +kernel

theorem quotient_lt : ∀ log < 277, ∀ i < 12,
    2 * 2 ^ log * 10 ^ (-(boundOf log - (i : Nat))).toNat / gridStep (boundOf log - (i : Nat)) < 2 ^ 40 := by
  decide +kernel

theorem boundOf_range : ∀ log < 277, -44 ≤ boundOf log ∧ boundOf log ≤ 39 := by
  decide +kernel

structure ShortestFor (o : Nat) (d : Decimal) : Prop where
  reads : d.ReadsAs o
  near : (⟨roundHalfEven (binary32.units o * 10 ^ (-d.exponent).toNat) (gridStep d.exponent), d.exponent⟩ :
      Decimal).ReadsAs o →
    d.digits = roundHalfEven (binary32.units o * 10 ^ (-d.exponent).toNat) (gridStep d.exponent)
  digits_le : d.digits ≤ 2 ^ 40
  lowest : -55 ≤ d.exponent
  highest : d.exponent ≤ 39

theorem units_le_gap (k : Nat) : binary32.units (k + 1) ≤ 2 ^ 24 * binary32.gap k := by
  obtain ⟨r, hk, hr, hs⟩ := exists_place (f := binary32) k
  rw [units_succ, gap]
  generalize k / 2 ^ binary32.fractionBits - 1 = s at *
  rw [hk, units_add hr.le hs, ← Nat.succ_mul]
  exact Nat.mul_le_mul_right _ hr

theorem gridNeighbours_le {magnitude d : Nat} (h : d ∈ gridNeighbours magnitude e) :
    d ≤ magnitude * 10 ^ (-e).toNat / gridStep e + 1 := by
  simp only [gridNeighbours, List.mem_cons, List.not_mem_nil, or_false] at h
  rw [gridStep]
  generalize magnitude * 10 ^ (-e).toNat = num at *
  generalize 2 ^ binary32.scale * 10 ^ e.toNat = den at *
  have hround : roundHalfEven num den ≤ num / den + 1 := by
    rw [roundHalfEven]
    split_ifs <;> omega
  split_ifs at h <;> omega

theorem shortest_of_zero {a : Single} (h : a.ordinal = 0) : a.shortest = ⟨0, 0⟩ := by
  rw [shortest, magnitude, h]
  rfl

theorem magnitude_pos {a : Single} (hpos : 0 < a.ordinal) : 0 < a.magnitude :=
  Nat.zero_lt_of_lt (units_strictMono hpos)

theorem log2_magnitude_lt {a : Single} (hfinite : a.isFinite = true) (hpos : 0 < a.ordinal) :
    a.magnitude.log2 < 277 := by
  have hpow : a.magnitude < 2 ^ (24 + 253) := by
    rw [Nat.pow_add, ← units_infinity]
    exact units_strictMono (isFinite_iff.mp hfinite)
  have hlog := (Nat.log2_lt (k := 24 + 253) (magnitude_pos hpos).ne').mpr hpow
  omega

-- The last of the twelve grids is so fine that its nearest point always reads back.
theorem finest_readsAs {a : Single} (hfinite : a.isFinite = true) (hpos : 0 < a.ordinal) :
    (⟨(gridNeighbours a.magnitude (a.decimalBound - (11 : Nat))).headD 0,
      a.decimalBound - (11 : Nat)⟩ : Decimal).ReadsAs a.ordinal := by
  have hstep : gridStep (a.decimalBound - (11 : Nat)) <
      binary32.gap (a.ordinal - 1) * 10 ^ (-(a.decimalBound - (11 : Nat))).toNat := by
    have hself := Nat.log2_self_le (magnitude_pos hpos).ne'
    have hgap := units_le_gap (a.ordinal - 1)
    rw [Nat.sub_add_cancel hpos] at hgap
    apply Nat.lt_of_mul_lt_mul_right (a := 2 ^ 24)
    refine (gridStep_finest _ (log2_magnitude_lt hfinite hpos)).trans_le ?_
    rw [Nat.mul_right_comm]
    exact Nat.mul_le_mul_right _ ((hself.trans hgap).trans_eq (Nat.mul_comm _ _))
  exact near_readsAs hpos (isFinite_iff.mp hfinite) hstep.le (.inl hstep)

theorem shortestFor_shortest {a : Single} (hfinite : a.isFinite = true) (hpos : 0 < a.ordinal) :
    ShortestFor a.ordinal a.shortest := by
  have hlog := log2_magnitude_lt hfinite hpos
  have hbound : a.decimalBound = boundOf a.magnitude.log2 := rfl
  obtain ⟨i, hi, d, hfind, hshort⟩ := shortestFrom_eq (show 11 < 12 by decide) (finest_readsAs hfinite hpos)
  have hd : a.shortest = ⟨d, a.decimalBound - (i : Nat)⟩ := by
    rw [shortest, if_neg (magnitude_pos hpos).ne', hshort]
  have hreads := List.find?_some hfind
  rw [decide_eq_true_eq, Decimal.toSingle_eq_iff] at hreads
  have hrange := boundOf_range _ hlog
  rw [← hbound] at hrange
  rw [hd]
  refine ⟨hreads, ?_, ?_, ?_, ?_⟩
  · intro hnear
    rw [← Decimal.toSingle_eq_iff] at hnear
    have hhead := List.find?_cons_of_pos (l := (gridNeighbours a.magnitude (a.decimalBound - (i : Nat))).tail)
      (p := fun digits => decide (Decimal.toSingle a.negative ⟨digits, a.decimalBound - (i : Nat)⟩ = a))
      (decide_eq_true hnear)
    exact Option.some.inj (hfind.symm.trans hhead)
  · have hle := gridNeighbours_le (List.mem_of_find?_eq_some hfind)
    have hquot : a.magnitude * 10 ^ (-(a.decimalBound - (i : Nat))).toNat / gridStep (a.decimalBound - (i : Nat)) <
        2 ^ 40 := by
      refine lt_of_le_of_lt ?_ (quotient_lt _ hlog i (by omega))
      rw [hbound]
      apply Nat.div_le_div_right
      apply Nat.mul_le_mul_right
      have hself := Nat.lt_log2_self (n := a.magnitude)
      rw [Nat.pow_succ] at hself
      omega
    show d ≤ 2 ^ 40
    omega
  · show -55 ≤ a.decimalBound - (i : Int)
    omega
  · show a.decimalBound - (i : Int) ≤ 39
    omega

variable {d : Decimal} {k : Nat}

theorem ShortestFor.close (hd : ShortestFor o d) (ho : 0 < o) (hlt : o < binary32.infinity) (hk : k + 1 = o ∨ k = o)
    (hstep : 2 * gridStep d.exponent ≤ binary32.gap k * d.denominator) :
    4 * d.scaled ≤ 4 * (binary32.units o * d.denominator) + binary32.gap k * d.denominator ∧
      4 * (binary32.units o * d.denominator) ≤ 4 * d.scaled + binary32.gap k * d.denominator := by
  have hpos := gridStep_pos d.exponent
  have hgap := gap_pred fractionBits_pos ho
  have hread : gridStep d.exponent ≤ binary32.gap (o - 1) * d.denominator ∧
      (gridStep d.exponent < binary32.gap (o - 1) * d.denominator ∨ o % 2 = 0) := by
    rcases hk with rfl | rfl
    · rw [Nat.add_sub_cancel]
      exact ⟨by omega, .inl (by omega)⟩
    · rcases hgap with h | ⟨h, heven⟩
      · rw [← h]
        exact ⟨by omega, .inl (by omega)⟩
      · rw [h, Nat.mul_assoc] at hstep
        exact ⟨by omega, .inr heven⟩
  have hnear := hd.near (near_readsAs ho hlt hread.1 hread.2)
  obtain ⟨hupper, hlower⟩ := roundHalfEven_bounds (binary32.units o * d.denominator) hpos
  have hscaled : d.scaled = roundHalfEven (binary32.units o * d.denominator) (gridStep d.exponent) *
      gridStep d.exponent := by
    rw [Decimal.denominator, ← hnear, ← scaled_mk]
  generalize roundHalfEven (binary32.units o * d.denominator) (gridStep d.exponent) = r at *
  rw [hscaled]
  have he : (2 * r + 1) * gridStep d.exponent = 2 * (r * gridStep d.exponent) + gridStep d.exponent := by ring
  have he' : 2 * r * gridStep d.exponent = 2 * (r * gridStep d.exponent) := by ring
  omega

end Single

end VoxelOctree
