import Mathlib.Data.Nat.Basic
import Mathlib.Data.List.Basic
import Mathlib.Tactic.SplitIfs
import VoxelOctree.Octree

namespace VoxelOctree

/-- The number of planes below `2 ^ d` that are less than a coordinate. -/
def planesBelow (d c : Nat) : Nat :=
  (List.range d).countP fun k => decide (2 ^ k < c)

def OnPlane (d c : Nat) : Prop :=
  ∃ k < d, c = 2 ^ k

instance (d c : Nat) : Decidable (OnPlane d c) :=
  Nat.decidableExistsLT d

namespace Point

def Kept (d : Nat) (p : Point) : Prop :=
  ∀ c ∈ p.toList, ¬ OnPlane d c.toNat

instance (d : Nat) (p : Point) : Decidable (p.Kept d) :=
  List.decidableBAll _ p.toList

def levels (d : Nat) (p : Point) : Vec3 Nat :=
  p.map fun c => planesBelow d c.toNat

def route (p : Point) : (level : Nat) → List Nat
  | 0 => []
  | level + 1 =>
    match Octant.ofPoint p (2 ^ level) with
    | none => []
    | some k => k.val :: route p level

end Point

theorem onPlane_succ_iff (d c : Nat) : OnPlane (d + 1) c ↔ c = 2 ^ d ∨ OnPlane d c := by
  constructor
  · rintro ⟨k, hk, rfl⟩
    rcases Nat.lt_succ_iff_lt_or_eq.mp hk with hk | rfl
    · exact .inr ⟨k, hk, rfl⟩
    · exact .inl rfl
  · rintro (rfl | ⟨k, hk, rfl⟩)
    · exact ⟨d, Nat.lt_succ_self d, rfl⟩
    · exact ⟨k, Nat.lt_succ_of_lt hk, rfl⟩

theorem planesBelow_succ (d c : Nat) :
    planesBelow (d + 1) c = planesBelow d c + if 2 ^ d < c then 1 else 0 := by
  simp [planesBelow, List.range_succ, List.countP_append, List.countP_singleton]

theorem planesBelow_le (d c : Nat) : planesBelow d c ≤ d := by
  have h := List.countP_le_length (p := fun k => decide (2 ^ k < c)) (l := List.range d)
  rwa [List.length_range] at h

theorem planesBelow_of_lt {d c : Nat} (h : 2 ^ d < c) : planesBelow d c = d := by
  induction d with
  | zero => rfl
  | succ d ih =>
    have hlt : 2 ^ d < c := Nat.lt_trans (Nat.pow_lt_pow_right (by decide) (Nat.lt_succ_self d)) h
    rw [planesBelow_succ, ih hlt, if_pos hlt]

theorem planesBelow_succ_eq_iff {d b c : Nat} (hb : b ≠ 2 ^ d) (hc : c ≠ 2 ^ d) :
    planesBelow (d + 1) b = planesBelow (d + 1) c ↔
      Side.of b (2 ^ d) = Side.of c (2 ^ d) ∧ planesBelow d b = planesBelow d c := by
  rw [planesBelow_succ, planesBelow_succ]
  have hleb := planesBelow_le d b
  have hlec := planesBelow_le d c
  rcases Nat.lt_or_gt_of_ne hb with hb | hb <;> rcases Nat.lt_or_gt_of_ne hc with hc | hc
  · simp [(Side.of_eq_below_iff _ _).mpr hb, (Side.of_eq_below_iff _ _).mpr hc, Nat.lt_asymm hb, Nat.lt_asymm hc]
  · rw [(Side.of_eq_below_iff _ _).mpr hb, (Side.of_eq_above_iff _ _).mpr hc, planesBelow_of_lt hc, if_pos hc,
      if_neg (Nat.lt_asymm hb)]
    simp only [Option.some.injEq, reduceCtorEq, false_and, iff_false]
    omega
  · rw [(Side.of_eq_above_iff _ _).mpr hb, (Side.of_eq_below_iff _ _).mpr hc, planesBelow_of_lt hb, if_pos hb,
      if_neg (Nat.lt_asymm hc)]
    simp only [Option.some.injEq, reduceCtorEq, false_and, iff_false]
    omega
  · simp [(Side.of_eq_above_iff _ _).mpr hb, (Side.of_eq_above_iff _ _).mpr hc, hb, hc]

namespace Octant

theorem ofPoint_eq_some_iff {p : Point} {b : Nat} {k : Octant} :
    ofPoint p b = some k ↔ (p.map fun c => Side.of c.toNat b) = k.sides.map some := by
  rw [ofPoint, Option.map_eq_some_iff]
  constructor
  · rintro ⟨s, hs, rfl⟩
    rw [sides_ofSides]
    exact (Vec3.sequence_eq_some_iff _ _).mp hs
  · intro h
    exact ⟨k.sides, (Vec3.sequence_eq_some_iff _ _).mpr h, ofSides_sides k⟩

theorem ofPoint_eq_none_iff {p : Point} {b : Nat} : ofPoint p b = none ↔ ∃ c ∈ p.toList, c.toNat = b := by
  obtain ⟨x, y, z⟩ := p
  simp only [ofPoint, Option.map_eq_none_iff, Vec3.toList, List.mem_cons, List.not_mem_nil, or_false,
    exists_eq_or_imp, exists_eq_left, Vec3.map]
  rw [← Side.of_eq_none_iff x.toNat, ← Side.of_eq_none_iff y.toNat, ← Side.of_eq_none_iff z.toNat]
  cases Side.of x.toNat b <;> cases Side.of y.toNat b <;> cases Side.of z.toNat b <;> simp [Vec3.sequence]

theorem ne_of_ofPoint {p : Point} {b : Nat} {k : Octant} (h : ofPoint p b = some k) :
    ∀ c ∈ p.toList, c.toNat ≠ b := by
  intro c hc he
  rw [ofPoint_eq_none_iff.mpr ⟨c, hc, he⟩] at h
  cases h

end Octant

namespace Point

theorem kept_succ_iff (d : Nat) (p : Point) :
    Kept (d + 1) p ↔ (∃ k, Octant.ofPoint p (2 ^ d) = some k) ∧ Kept d p := by
  rw [← Option.ne_none_iff_exists', Ne, Octant.ofPoint_eq_none_iff]
  simp only [Kept, onPlane_succ_iff, not_or, not_exists, not_and]
  exact forall₂_and

theorem length_route_iff (p : Point) (d : Nat) : (p.route d).length = d ↔ Kept d p := by
  induction d with
  | zero => simp [route, Kept, OnPlane]
  | succ d ih =>
    rw [kept_succ_iff, ← ih, route]
    cases Octant.ofPoint p (2 ^ d) with
    | none => simp
    | some k => simp

theorem levels_succ_eq_iff {d : Nat} {p q : Point} {j k : Octant} (hp : Octant.ofPoint p (2 ^ d) = some j)
    (hq : Octant.ofPoint q (2 ^ d) = some k) :
    levels (d + 1) p = levels (d + 1) q ↔ j = k ∧ levels d p = levels d q := by
  have hnep := Octant.ne_of_ofPoint hp
  have hneq := Octant.ne_of_ofPoint hq
  have hside : j = k ↔ (p.map fun c => Side.of c.toNat (2 ^ d)) = q.map fun c => Side.of c.toNat (2 ^ d) := by
    rw [Octant.ofPoint_eq_some_iff.mp hq, ← Octant.ofPoint_eq_some_iff, hp, Option.some.injEq]
  rw [hside]
  obtain ⟨x, y, z⟩ := p
  obtain ⟨x', y', z'⟩ := q
  simp only [levels, Vec3.map, Vec3.mk.injEq, Vec3.toList, List.mem_cons, List.not_mem_nil, or_false,
    forall_eq_or_imp, forall_eq] at hnep hneq ⊢
  rw [planesBelow_succ_eq_iff hnep.1 hneq.1, planesBelow_succ_eq_iff hnep.2.1 hneq.2.1,
    planesBelow_succ_eq_iff hnep.2.2 hneq.2.2]
  tauto

theorem route_eq_iff {d : Nat} {p q : Point} (hp : Kept d p) (hq : Kept d q) :
    p.route d = q.route d ↔ levels d p = levels d q := by
  induction d with
  | zero => simp [route, levels, Vec3.map, planesBelow]
  | succ d ih =>
    obtain ⟨⟨j, hj⟩, hp⟩ := (kept_succ_iff d p).mp hp
    obtain ⟨⟨k, hk⟩, hq⟩ := (kept_succ_iff d q).mp hq
    rw [levels_succ_eq_iff hj hk, ← ih hp hq, route, route, hj, hk, List.cons.injEq, Fin.val_inj]

end Point

end VoxelOctree
