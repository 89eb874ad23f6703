import Mathlib.Tactic.Ring
import VoxelOctree.LittleEndian

/-!
Multiples of two numbers that almost meet. They are found by the Euclidean algorithm: what separates the multiples of
`r` and `b` also separates those of the remainder `b % r` and of `r`.
-/

namespace VoxelOctree

variable {w n r b x y : Nat}

def closePairsBelow (w n r b : Nat) : List (Nat × Nat) :=
  (List.range (n + 1)).flatMap fun x => (List.range ((r * n + w) / b + 1)).filterMap fun y =>
    if r * x ≠ b * y ∧ r * x ≤ b * y + w ∧ b * y ≤ r * x + w then some (x, y) else none

/-- The numbers `x`, up to `n`, and `y` for which `r * x` and `b * y` differ, but by no more than `w`. -/
def closePairs (w : Nat) : Nat → Nat → Nat → Nat → List (Nat × Nat)
  | 0, n, r, b => closePairsBelow w n r b
  | steps + 1, n, r, b =>
    if r = 0 then []
    else if r ≤ w then closePairsBelow w n r b
    else (closePairs w steps ((r * n + w) / b) (b % r) r).map fun p => (b / r * p.1 + p.2, p.1)

theorem le_of_close (hb : w < b) (hx : x ≤ n) (hge : b * y ≤ r * x + w) : y ≤ (r * n + w) / b := by
  rw [Nat.le_div_iff_mul_le (by omega), Nat.mul_comm]
  exact hge.trans (Nat.add_le_add_right (Nat.mul_le_mul_left r hx) w)

theorem mem_closePairsBelow (hb : w < b) (hx : x ≤ n) (hne : r * x ≠ b * y) (hle : r * x ≤ b * y + w)
    (hge : b * y ≤ r * x + w) : (x, y) ∈ closePairsBelow w n r b := by
  have hy := le_of_close hb hx hge
  rw [closePairsBelow, List.mem_flatMap]
  refine ⟨x, List.mem_range.mpr (by omega), ?_⟩
  rw [List.mem_filterMap]
  exact ⟨y, List.mem_range.mpr (by omega), if_pos ⟨hne, hle, hge⟩⟩

theorem mem_closePairs (steps : Nat) (hb : w < b) (hx : x ≤ n) (hne : r * x ≠ b * y) (hle : r * x ≤ b * y + w)
    (hge : b * y ≤ r * x + w) : (x, y) ∈ closePairs w steps n r b := by
  induction steps generalizing n r b x y with
  | zero => exact mem_closePairsBelow hb hx hne hle hge
  | succ steps ih =>
    rw [closePairs]
    split_ifs with hr hw
    · subst hr
      have hy : 0 < y := Nat.pos_of_ne_zero fun h => hne (by rw [h, Nat.zero_mul, Nat.mul_zero])
      have := Nat.le_mul_of_pos_right b hy
      omega
    · exact mem_closePairsBelow hb hx hne hle hge
    · have hbr : b * y = r * (b / r * y) + b % r * y := by
        conv_lhs => rw [← Nat.div_add_mod b r]
        ring
      have hqx : b / r * y ≤ x := by
        by_contra h
        have := Nat.mul_le_mul_left r (show x + 1 ≤ b / r * y by omega)
        rw [Nat.mul_succ] at this
        omega
      obtain ⟨z, rfl⟩ := Nat.exists_eq_add_of_le hqx
      rw [Nat.mul_add, hbr] at hne hle hge
      rw [List.mem_map]
      exact ⟨(y, z), ih (by omega) (le_of_close hb hx (by rw [Nat.mul_add, hbr]; omega)) (by omega) (by omega)
        (by omega), rfl⟩

end VoxelOctree
