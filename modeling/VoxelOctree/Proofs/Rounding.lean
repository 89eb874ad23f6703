import Mathlib.Order.Monotone.Basic
import Mathlib.Tactic.Linarith
import Mathlib.Tactic.Ring
import VoxelOctree.Rounding

/-!
Rounding to the nearest magnitude of a format. A quotient is rounded to at most the magnitude number `k` exactly when
it lies below the middle between the numbers `k` and `k + 1`, or on it with `k` even. Everything else follows from
this: magnitudes are rounded to themselves, order is kept, and the error is small beside the result.
-/

namespace VoxelOctree

theorem roundHalfEven_le_iff {num den m : Nat} (hd : 0 < den) : roundHalfEven num den ≤ m ↔
    2 * num < (2 * m + 1) * den ∨ 2 * num = (2 * m + 1) * den ∧ m % 2 = 0 := by
  have hnum := Nat.div_add_mod num den
  have hlt := Nat.mod_lt num hd
  have he : (2 * m + 1) * den = 2 * (den * m) + den := by ring
  rw [roundHalfEven, he]
  generalize num / den = q at *
  generalize num % den = r at *
  subst hnum
  rcases Nat.lt_trichotomy m q with h | rfl | h
  · have hle : den * (m + 1) ≤ den * q := Nat.mul_le_mul_left den h
    rw [Nat.mul_succ] at hle
    split_ifs <;> omega
  · split_ifs <;> omega
  · have hle : den * (q + 1) ≤ den * m := Nat.mul_le_mul_left den h
    rw [Nat.mul_succ] at hle
    split_ifs <;> omega

namespace BinaryFormat

variable (f : BinaryFormat)

def gap (ordinal : Nat) : Nat :=
  2 ^ (ordinal / 2 ^ f.fractionBits - 1)

variable {f} {s r o k num den : Nat}

theorem units_add (hr : r ≤ 2 * 2 ^ f.fractionBits) (hs : s = 0 ∨ 2 ^ f.fractionBits ≤ r) :
    f.units (s * 2 ^ f.fractionBits + r) = r * 2 ^ s := by
  have hp := Nat.two_pow_pos f.fractionBits
  unfold units
  generalize 2 ^ f.fractionBits = p at *
  have hdiv : (s * p + r) / p = s + r / p := by rw [Nat.mul_comm, Nat.mul_add_div hp]
  have hmod : (s * p + r) % p = r % p := by rw [Nat.mul_comm, Nat.mul_add_mod]
  simp only [hdiv, hmod]
  by_cases hlow : r < p
  · obtain rfl : s = 0 := hs.resolve_right (by omega)
    simp [Nat.div_eq_of_lt hlow, Nat.mod_eq_of_lt hlow]
  by_cases hhigh : r = 2 * p
  · -- the significand is full, and the next place takes over
    rw [hhigh, Nat.mul_div_cancel _ hp, Nat.mul_mod_left, if_neg (by omega), Nat.add_zero, Nat.add_sub_assoc (by omega),
      Nat.pow_succ]
    ring
  · have hr' : r / p = 1 := Nat.div_eq_of_lt_le (by omega) (by omega)
    have hx : r % p = r - p := by rw [Nat.mod_eq_sub_mod (by omega), Nat.mod_eq_of_lt (by omega)]
    rw [hr', hx, if_neg (by omega), Nat.add_sub_cancel, Nat.add_sub_cancel' (by omega)]

theorem exists_place (o : Nat) : ∃ r, o = (o / 2 ^ f.fractionBits - 1) * 2 ^ f.fractionBits + r ∧
    r < 2 * 2 ^ f.fractionBits ∧ (o / 2 ^ f.fractionBits - 1 = 0 ∨ 2 ^ f.fractionBits ≤ r) := by
  have hp := Nat.two_pow_pos f.fractionBits
  generalize 2 ^ f.fractionBits = p at *
  have ho := Nat.div_add_mod o p
  have hlt := Nat.mod_lt o hp
  generalize o / p = e at *
  generalize o % p = x at *
  cases e with
  | zero => exact ⟨x, by simpa using ho.symm, by omega, .inl rfl⟩
  | succ e =>
    refine ⟨p + x, ?_, by omega, .inr (by omega)⟩
    rw [← ho, Nat.add_sub_cancel]
    ring

theorem units_succ (o : Nat) : f.units (o + 1) = f.units o + f.gap o := by
  obtain ⟨r, ho, hr, hs⟩ := exists_place (f := f) o
  rw [gap]
  generalize o / 2 ^ f.fractionBits - 1 = s at *
  have hs' : s = 0 ∨ 2 ^ f.fractionBits ≤ r + 1 := hs.imp_right fun h => by omega
  rw [ho, units_add hr.le hs, Nat.add_assoc, units_add hr hs', Nat.succ_mul]

theorem units_strictMono : StrictMono f.units := by
  apply strictMono_nat_of_lt_succ
  intro o
  rw [units_succ]
  exact Nat.lt_add_of_pos_right (Nat.two_pow_pos _)

theorem even_add (hf : 0 < f.fractionBits) : (s * 2 ^ f.fractionBits + r) % 2 = r % 2 := by
  obtain ⟨b, hb⟩ := Nat.exists_eq_add_one.mpr hf
  rw [hb, Nat.pow_succ, ← Nat.mul_assoc, Nat.mul_comm, Nat.mul_add_mod]

theorem shift_bounds (hd : 0 < den) (hs : s = (num / den).log2 - f.fractionBits) :
    num < 2 * 2 ^ f.fractionBits * (den * 2 ^ s) ∧ (s = 0 ∨ 2 ^ f.fractionBits * (den * 2 ^ s) ≤ num) := by
  have hpow : 2 ^ f.fractionBits * (den * 2 ^ s) = den * 2 ^ (f.fractionBits + s) := by
    rw [Nat.pow_add]
    ring
  rw [Nat.mul_assoc, hpow]
  constructor
  · have hlog : num / den < 2 ^ (f.fractionBits + s + 1) :=
      Nat.lt_log2_self.trans_le (Nat.pow_le_pow_right (by decide) (by omega))
    rw [Nat.div_lt_iff_lt_mul hd, Nat.pow_succ] at hlog
    linarith
  · by_cases h : num / den = 0
    · left
      rw [hs, h]
      exact Nat.zero_sub _
    · by_cases hz : s = 0
      · exact .inl hz
      · right
        have hlog := Nat.log2_self_le h
        rw [show (num / den).log2 = f.fractionBits + s by omega, Nat.le_div_iff_mul_le hd] at hlog
        rwa [Nat.mul_comm]

theorem nearest_le_iff (hf : 0 < f.fractionBits) (hd : 0 < den) (hk : k < f.infinity) : f.nearest num den ≤ k ↔
    2 * num < (f.units k + f.units (k + 1)) * den ∨
      2 * num = (f.units k + f.units (k + 1)) * den ∧ k % 2 = 0 := by
  obtain ⟨s, hs⟩ : ∃ s, s = (num / den).log2 - f.fractionBits := ⟨_, rfl⟩
  obtain ⟨hupper, hlower⟩ := shift_bounds hd hs
  have hD : 0 < den * 2 ^ s := Nat.mul_pos hd (Nat.two_pow_pos s)
  have hmin : f.nearest num den ≤ k ↔ s * 2 ^ f.fractionBits + roundHalfEven num (den * 2 ^ s) ≤ k := by
    simp only [nearest, ← hs]
    omega
  rw [hmin]
  have hp := Nat.two_pow_pos f.fractionBits
  have hfull : roundHalfEven num (den * 2 ^ s) ≤ 2 * 2 ^ f.fractionBits :=
    (roundHalfEven_le_iff hD).mpr (.inl (by linarith))
  by_cases hhigh : s * 2 ^ f.fractionBits + 2 * 2 ^ f.fractionBits ≤ k
  · have hunits := f.units_strictMono.monotone hhigh
    have hnext := f.units_strictMono (Nat.lt_succ_self k)
    rw [units_add (Nat.le_refl _) (.inr (by omega))] at hunits
    have hlt : 2 * num < (f.units k + f.units (k + 1)) * den := by nlinarith
    simp only [hlt, true_or, iff_true]
    omega
  by_cases hlow : s ≠ 0 ∧ k < s * 2 ^ f.fractionBits + 2 ^ f.fractionBits
  · obtain ⟨hs0, hlow⟩ := hlow
    have hnum := hlower.resolve_left hs0
    have hunits := f.units_strictMono.monotone (show k + 1 ≤ s * 2 ^ f.fractionBits + 2 ^ f.fractionBits from hlow)
    have hnext := f.units_strictMono (Nat.lt_succ_self k)
    rw [units_add (by omega) (.inr (Nat.le_refl _))] at hunits
    have hlt : (f.units k + f.units (k + 1)) * den < 2 * num := by nlinarith
    have hround : ¬ roundHalfEven num (den * 2 ^ s) ≤ 2 ^ f.fractionBits - 1 := by
      rw [roundHalfEven_le_iff hD]
      obtain ⟨p, hp'⟩ := Nat.exists_eq_add_one.mpr hp
      rw [hp'] at hnum ⊢
      rw [Nat.add_sub_cancel]
      rintro (h | ⟨h, -⟩) <;> nlinarith
    omega
  · obtain ⟨m, rfl⟩ : ∃ m, k = s * 2 ^ f.fractionBits + m := ⟨k - s * 2 ^ f.fractionBits, by
      by_cases hs0 : s = 0
      · simp [hs0]
      · omega⟩
    have hm : m < 2 * 2 ^ f.fractionBits := by omega
    have hplace : s = 0 ∨ 2 ^ f.fractionBits ≤ m := by omega
    have hplace' : s = 0 ∨ 2 ^ f.fractionBits ≤ m + 1 := by omega
    have hmiddle : (m * 2 ^ s + (m + 1) * 2 ^ s) * den = (2 * m + 1) * (den * 2 ^ s) := by ring
    rw [even_add hf, Nat.add_assoc, units_add hm.le hplace, units_add hm hplace', hmiddle,
      ← roundHalfEven_le_iff hD, Nat.add_le_add_iff_left]

theorem lt_nearest_iff (hf : 0 < f.fractionBits) (hd : 0 < den) (hk : k < f.infinity) : k < f.nearest num den ↔
    (f.units k + f.units (k + 1)) * den < 2 * num ∨
      2 * num = (f.units k + f.units (k + 1)) * den ∧ k % 2 = 1 := by
  rw [← Nat.not_le, nearest_le_iff hf hd hk]
  omega

theorem nearest_le_infinity (num den : Nat) : f.nearest num den ≤ f.infinity :=
  Nat.min_le_right _ _

theorem nearest_mono (hf : 0 < f.fractionBits) (hd : 0 < den) {num' : Nat} (h : num ≤ num') :
    f.nearest num den ≤ f.nearest num' den := by
  rcases (nearest_le_infinity num' den).lt_or_eq with hlt | he
  · rw [nearest_le_iff hf hd hlt]
    have hself := (nearest_le_iff hf hd hlt).mp (Nat.le_refl (f.nearest num' den))
    omega
  · rw [he]
    exact nearest_le_infinity num den

theorem nearest_units (hf : 0 < f.fractionBits) (hd : 0 < den) (ho : o < f.infinity) :
    f.nearest (f.units o * den) den = o := by
  apply Nat.le_antisymm
  · rw [nearest_le_iff hf hd ho]
    left
    have hnext := f.units_strictMono (Nat.lt_succ_self o)
    nlinarith
  · cases o with
    | zero => exact Nat.zero_le _
    | succ o =>
      show o < _
      rw [lt_nearest_iff hf hd (by omega)]
      left
      have hnext := f.units_strictMono (Nat.lt_succ_self o)
      nlinarith

theorem exists_units (hr : r ≤ 2 * 2 ^ f.fractionBits) (s : Nat) : ∃ o, f.units o = r * 2 ^ s := by
  induction s generalizing r with
  | zero => exact ⟨0 * 2 ^ f.fractionBits + r, units_add hr (.inl rfl)⟩
  | succ s ih =>
    by_cases h : 2 ^ f.fractionBits ≤ r
    · exact ⟨_, units_add hr (.inr h)⟩
    · obtain ⟨o, ho⟩ := ih (r := 2 * r) (by omega)
      refine ⟨o, ?_⟩
      rw [ho, Nat.pow_succ]
      ring

theorem units_nearest (hf : 0 < f.fractionBits) (hd : 0 < den) (hr : r ≤ 2 * 2 ^ f.fractionBits)
    (hs : r * 2 ^ s < f.units f.infinity) :
    f.nearest (r * 2 ^ s * den) den < f.infinity ∧ f.units (f.nearest (r * 2 ^ s * den) den) = r * 2 ^ s := by
  obtain ⟨o, ho⟩ := exists_units hr s
  have hlt : o < f.infinity := f.units_strictMono.lt_iff_lt.mp (ho ▸ hs)
  rw [← ho, nearest_units hf hd hlt]
  exact ⟨hlt, rfl⟩

theorem gap_mono {o' : Nat} (h : o ≤ o') : f.gap o ≤ f.gap o' :=
  Nat.pow_le_pow_right (by decide) (Nat.sub_le_sub_right (Nat.div_le_div_right h) 1)

theorem gap_mul_le (ho : 2 ^ f.fractionBits ≤ o) : f.gap o * 2 ^ f.fractionBits ≤ f.units o := by
  obtain ⟨r, hplace, hr, hs⟩ := exists_place (f := f) o
  rw [gap]
  generalize o / 2 ^ f.fractionBits - 1 = s at *
  have hle : 2 ^ f.fractionBits ≤ r := by
    rcases hs with rfl | h
    · omega
    · exact h
  rw [hplace, units_add hr.le hs, Nat.mul_comm]
  exact Nat.mul_le_mul_right _ hle

theorem nearest_error (hf : 0 < f.fractionBits) (hd : 0 < den) (ho : f.nearest num den = o) (hlt : o < f.infinity)
    (hlow : 2 ^ f.fractionBits ≤ o) :
    2 * 2 ^ f.fractionBits * num ≤ (2 * 2 ^ f.fractionBits + 1) * (f.units o * den) ∧
      2 * 2 ^ f.fractionBits * (f.units o * den) ≤ 2 * 2 ^ f.fractionBits * num + f.units o * den := by
  have hgap := gap_mul_le hlow
  have hupper := (nearest_le_iff hf hd hlt).mp ho.le
  rw [units_succ] at hupper
  obtain ⟨k, rfl⟩ : ∃ k, o = k + 1 := ⟨o - 1, by have := Nat.two_pow_pos f.fractionBits; omega⟩
  have hlower := (lt_nearest_iff hf hd (by omega)).mp (show k < f.nearest num den by omega)
  have hmono : f.gap k ≤ f.gap (k + 1) := gap_mono (Nat.le_succ k)
  have hk := f.units_succ k
  generalize 2 ^ f.fractionBits = p at *
  generalize f.gap (k + 1) = g at *
  constructor
  · have h : 2 * num ≤ (2 * f.units (k + 1) + g) * den := by
      rw [Nat.two_mul, Nat.two_mul, Nat.add_assoc]
      omega
    nlinarith [Nat.mul_le_mul_right den hgap, Nat.mul_le_mul_left p h]
  · have h : 2 * f.units (k + 1) * den ≤ 2 * num + g * den := by
      have : 2 * f.units (k + 1) * den ≤ (f.units k + f.units (k + 1)) * den + g * den := by
        rw [← Nat.add_mul]
        exact Nat.mul_le_mul_right den (by omega)
      omega
    nlinarith [Nat.mul_le_mul_right den hgap, Nat.mul_le_mul_left p h]

end BinaryFormat

end VoxelOctree
