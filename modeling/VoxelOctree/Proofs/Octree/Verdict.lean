import Mathlib.Order.Bounds.Basic
import VoxelOctree.Proofs.Octree.Descent

namespace VoxelOctree

namespace Point

/-- The powers of two below a size that are coordinates of a point. -/
def planes (p : Point) (size : Nat) : Set Nat :=
  {b | b < size ∧ (∃ k, b = 2 ^ k) ∧ ∃ c ∈ p.toList, c.toNat = b}

def plane? (p : Point) : (d : Nat) → Option Nat
  | 0 => none
  | d + 1 => if ∃ c ∈ p.toList, c.toNat = 2 ^ d then some (2 ^ d) else p.plane? d

def drop? (d : Nat) (p : Point) : Option Drop :=
  (p.plane? d).map fun b => ⟨p, 2 * b, b⟩

def verdict (d : Nat) (p : Point) : Except InsertError Unit :=
  match p.drop? d with
  | none => .ok ()
  | some drop => .error (.dropped drop)

variable {p : Point} {d : Nat}

theorem planes_one (p : Point) : p.planes (2 ^ 0) = ∅ := by
  apply Set.eq_empty_of_forall_notMem
  rintro _ ⟨hlt, ⟨k, rfl⟩, -⟩
  have hpos := Nat.two_pow_pos k
  rw [Nat.pow_zero] at hlt
  omega

theorem planes_succ (h : ¬ ∃ c ∈ p.toList, c.toNat = 2 ^ d) : p.planes (2 ^ (d + 1)) = p.planes (2 ^ d) := by
  ext b
  constructor
  · rintro ⟨hlt, ⟨k, rfl⟩, hc⟩
    have hk : k < d + 1 := (Nat.pow_lt_pow_iff_right (by decide)).mp hlt
    rcases Nat.lt_succ_iff_lt_or_eq.mp hk with hk | rfl
    · exact ⟨Nat.pow_lt_pow_right (by decide) hk, ⟨k, rfl⟩, hc⟩
    · exact absurd hc h
  · rintro ⟨hlt, hpow, hc⟩
    have hle : 2 ^ d ≤ 2 ^ (d + 1) := Nat.pow_le_pow_right (by decide) (Nat.le_succ d)
    exact ⟨hlt.trans_le hle, hpow, hc⟩

theorem isGreatest_planes_succ (h : ∃ c ∈ p.toList, c.toNat = 2 ^ d) :
    IsGreatest (p.planes (2 ^ (d + 1))) (2 ^ d) := by
  constructor
  · exact ⟨Nat.pow_lt_pow_right (by decide) (Nat.lt_succ_self d), ⟨d, rfl⟩, h⟩
  · rintro _ ⟨hlt, ⟨k, rfl⟩, -⟩
    have hk : k < d + 1 := (Nat.pow_lt_pow_iff_right (by decide)).mp hlt
    exact Nat.pow_le_pow_right (by decide) (Nat.le_of_lt_succ hk)

theorem plane?_spec (p : Point) (d : Nat) :
    (p.plane? d = none ∧ p.planes (2 ^ d) = ∅) ∨ ∃ b, p.plane? d = some b ∧ IsGreatest (p.planes (2 ^ d)) b := by
  induction d with
  | zero => exact .inl ⟨rfl, planes_one p⟩
  | succ d ih =>
    by_cases hc : ∃ c ∈ p.toList, c.toNat = 2 ^ d
    · rw [plane?, if_pos hc]
      exact .inr ⟨2 ^ d, rfl, isGreatest_planes_succ hc⟩
    · rw [plane?, if_neg hc, planes_succ hc]
      exact ih

theorem plane?_eq_none_iff : p.plane? d = none ↔ p.planes (2 ^ d) = ∅ := by
  rcases plane?_spec p d with ⟨hnone, hempty⟩ | ⟨b, hsome, hb⟩
  · exact iff_of_true hnone hempty
  · apply iff_of_false
    · rw [hsome]
      exact Option.some_ne_none b
    · exact Set.Nonempty.ne_empty ⟨b, hb.1⟩

theorem plane?_eq_some_iff {b : Nat} : p.plane? d = some b ↔ IsGreatest (p.planes (2 ^ d)) b := by
  rcases plane?_spec p d with ⟨hnone, hempty⟩ | ⟨greatest, hsome, hg⟩
  · rw [hnone, hempty]
    apply iff_of_false
    · simp
    · exact fun hb => hb.1
  · rw [hsome, Option.some.injEq]
    constructor
    · rintro rfl
      exact hg
    · exact hg.unique

theorem verdict_succ_of_none (h : Octant.ofPoint p (2 ^ d) = none) :
    p.verdict (d + 1) = .error (.dropped ⟨p, 2 ^ (d + 1), 2 ^ d⟩) := by
  have hc := Octant.ofPoint_eq_none_iff.mp h
  rw [verdict, drop?, plane?, if_pos hc, Nat.pow_succ']
  rfl

theorem verdict_succ_of_some {k : Octant} (h : Octant.ofPoint p (2 ^ d) = some k) : p.verdict (d + 1) = p.verdict d := by
  have hc : ¬ ∃ c ∈ p.toList, c.toNat = 2 ^ d := by
    rintro ⟨c, hmem, he⟩
    exact Octant.ne_of_ofPoint h c hmem he
  rw [verdict, drop?, plane?, if_neg hc]
  rfl

theorem drop?_eq_none_iff : p.drop? d = none ↔ p.verdict d = .ok () := by
  rw [verdict]
  cases p.drop? d <;> simp

theorem drop?_eq_some_iff {drop : Drop} : p.drop? d = some drop ↔ p.verdict d = .error (.dropped drop) := by
  rw [verdict]
  cases p.drop? d <;> simp

theorem verdict_eq_ok_iff : p.verdict d = .ok () ↔ p.planes (2 ^ d) = ∅ := by
  rw [← drop?_eq_none_iff, drop?, Option.map_eq_none_iff]
  exact plane?_eq_none_iff

theorem verdict_eq_dropped_iff {drop : Drop} : p.verdict d = .error (.dropped drop) ↔
    IsGreatest (p.planes (2 ^ d)) drop.boundary ∧ drop = ⟨p, 2 * drop.boundary, drop.boundary⟩ := by
  rw [← drop?_eq_some_iff, drop?, Option.map_eq_some_iff]
  constructor
  · rintro ⟨b, hb, rfl⟩
    exact ⟨plane?_eq_some_iff.mp hb, rfl⟩
  · rintro ⟨hb, he⟩
    exact ⟨drop.boundary, plane?_eq_some_iff.mpr hb, he.symm⟩

end Point

theorem Batch.total_run (points : List Point) {t : Octree} {report : InsertReport}
    (h : (run t report points).full = none) : (run t report points).report.total = report.total + points.length := by
  induction points generalizing t report with
  | nil => rfl
  | cons p rest ih =>
    unfold run at h ⊢
    rcases hp : t.insert p with ⟨t', (drop | full) | ⟨⟩⟩ <;> rw [hp] at h <;> dsimp only at h ⊢
    · rw [ih h]
      simp only [InsertReport.total, Array.size_push, List.length_cons]
      omega
    · cases h
    · rw [ih h]
      simp only [InsertReport.total, List.length_cons]
      omega

namespace Octree

theorem Descent.eq_verdict {p : Point} {t t' : Octree} {id level : Nat} {trail : List Nat} {r : Except InsertError Unit}
    (hd : Descent p t id level trail t' r) (hr : ∀ full, r ≠ .error (.arenaFull full)) : r = p.verdict level := by
  induction hd with
  | reach => rfl
  | plane hn hp => rw [Point.verdict_succ_of_none hp]
  | full => exact absurd rfl (hr _)
  | down hn hp hd ih => rw [Point.verdict_succ_of_some hp, ih hr]
  | split hn hp hl hd ih => rw [Point.verdict_succ_of_some hp, ih hr]

namespace Arena

variable {t : Octree}

theorem insert_eq_verdict (h : Arena t) {p : Point} (hr : ∀ full, (t.insert p).2 ≠ .error (.arenaFull full)) :
    (t.insert p).2 = p.verdict t.depth := by
  obtain ⟨trail, hd, -⟩ := h.insert_spec p
  exact hd.eq_verdict hr

theorem report_run (h : Arena t) (points : List Point) (report : InsertReport)
    (hf : (Batch.run t report points).full = none) :
    (Batch.run t report points).report.inserted =
        report.inserted + points.countP (fun p => (p.drop? t.depth).isNone) ∧
      (Batch.run t report points).report.dropped.toList =
        report.dropped.toList ++ points.filterMap (Point.drop? t.depth) := by
  induction points generalizing t report with
  | nil => simp [Batch.run]
  | cons p rest ih =>
    have hs := insert_steps p h
    have hnext := h.steps hs
    have hdepth := hs.depth_eq
    have hverdict := h.insert_eq_verdict (p := p)
    unfold Batch.run at hf ⊢
    rcases hp : t.insert p with ⟨t', (drop | full) | ⟨⟩⟩ <;> rw [hp] at hnext hdepth hverdict hf <;>
      dsimp only at hnext hdepth hverdict hf ⊢
    · obtain ⟨hinserted, hdropped⟩ := ih hnext _ hf
      have hdrop := Point.drop?_eq_some_iff.mpr (hverdict (by simp)).symm
      rw [hinserted, hdropped, hdepth]
      simp [hdrop]
    · cases hf
    · obtain ⟨hinserted, hdropped⟩ := ih hnext _ hf
      have hdrop := Point.drop?_eq_none_iff.mpr (hverdict (by simp)).symm
      rw [hinserted, hdropped, hdepth]
      simp only [hdrop, List.countP_cons, List.filterMap_cons, Option.isNone_none, ↓reduceIte, and_true]
      omega

end Arena

/-- Where there is room, a point is taken exactly if none of its coordinates is a power of two below the root size, and
otherwise refused at the largest of them. A batch reports the points that were taken by their number, and the others in
order. -/
theorem insert_verdict {t : Octree} (h : t.Reachable) :
    (∀ p : Point, (∀ full, (t.insert p).2 ≠ .error (.arenaFull full)) →
      ((t.insert p).2 = .ok () ↔ p.planes t.rootSize = ∅) ∧
      ((t.insert p).2 ≠ .ok () → ∃ b, IsGreatest (p.planes t.rootSize) b ∧
        (t.insert p).2 = .error (.dropped ⟨p, 2 * b, b⟩)) ∧
      ∀ t' : Octree, t'.Reachable → t'.rootSize = t.rootSize → (∀ full, (t'.insert p).2 ≠ .error (.arenaFull full)) →
        (t'.insert p).2 = (t.insert p).2) ∧
      (∀ p : Point, (p.drop? t.depth = none ↔ p.planes t.rootSize = ∅) ∧
        ∀ drop, p.drop? t.depth = some drop ↔ IsGreatest (p.planes t.rootSize) drop.boundary ∧
          drop = ⟨p, 2 * drop.boundary, drop.boundary⟩) ∧
      ∀ points report, (t.insertAll points).outcome = .ok report →
        report.inserted = points.countP (fun p => (p.drop? t.depth).isNone) ∧
        report.dropped.toList = points.filterMap (Point.drop? t.depth) ∧
        report.inserted + report.dropped.size = points.length := by
  have ha := h.arena
  refine ⟨fun p hr => ?_, fun p => ?_, fun points report ho => ?_⟩
  · have hp := ha.insert_eq_verdict hr
    refine ⟨?_, fun hne => ?_, fun t' h' hsize hr' => ?_⟩
    · rw [hp]
      exact Point.verdict_eq_ok_iff
    · rcases hv : (t.insert p).2 with (drop | full) | ⟨⟩
      · obtain ⟨hb, he⟩ := Point.verdict_eq_dropped_iff.mp (hp.symm.trans hv)
        exact ⟨drop.boundary, hb, by rw [← he]⟩
      · exact absurd hv (hr full)
      · exact absurd hv hne
    · have hdepth : t'.depth = t.depth := Nat.pow_right_injective (Nat.le_refl 2) hsize
      rw [h'.arena.insert_eq_verdict hr', hp, hdepth]
  · constructor
    · rw [Point.drop?_eq_none_iff]
      exact Point.verdict_eq_ok_iff
    · intro drop
      rw [Point.drop?_eq_some_iff]
      exact Point.verdict_eq_dropped_iff
  · obtain ⟨hfull, rfl⟩ := Batch.eq_report ho
    obtain ⟨hinserted, hdropped⟩ := ha.report_run points .empty hfull
    have htotal := Batch.total_run points hfull
    refine ⟨?_, hdropped, ?_⟩
    · rw [insertAll, hinserted]
      exact Nat.zero_add _
    · exact htotal.trans (Nat.zero_add _)

theorem insert_verdict_mixed : ∃ t : Octree, t.Reachable ∧ t.rootSize = 8 ∧
    (t.insert ⟨7, 1, 2⟩).2 = .error (.dropped ⟨⟨7, 1, 2⟩, 4, 2⟩) ∧ IsGreatest (Point.planes ⟨7, 1, 2⟩ 8) 2 ∧
    Point.planes ⟨4000000000, 8, 3⟩ 8 = ∅ ∧ ∃ report,
      (t.insertAll [⟨0, 0, 0⟩, ⟨7, 1, 2⟩, ⟨4000000000, 8, 3⟩, ⟨0, 0, 0⟩, ⟨1, 0, 0⟩]).outcome = .ok report ∧
        report.inserted = 3 ∧ report.dropped.toList = [⟨⟨7, 1, 2⟩, 4, 2⟩, ⟨⟨1, 0, 0⟩, 2, 1⟩] := by
  have h : (exec ⟨3, maxNodes, #[⟨3, .empty⟩]⟩ [.limit 9, .insert ⟨7, 7, 7⟩, .limit 100]).Reachable :=
    ⟨8, 16, _, _, rfl, rfl⟩
  have hrefused : (insert (exec ⟨3, maxNodes, #[⟨3, .empty⟩]⟩ [.limit 9, .insert ⟨7, 7, 7⟩, .limit 100])
      ⟨7, 1, 2⟩).2 = .error (.dropped ⟨⟨7, 1, 2⟩, 4, 2⟩) := by decide
  have htaken : (insert (exec ⟨3, maxNodes, #[⟨3, .empty⟩]⟩ [.limit 9, .insert ⟨7, 7, 7⟩, .limit 100])
      ⟨4000000000, 8, 3⟩).2 = .ok () := by decide
  obtain ⟨hinsert, -, hbatch⟩ := insert_verdict h
  obtain ⟨-, hdrop, -⟩ := hinsert ⟨7, 1, 2⟩ (by simp [hrefused])
  obtain ⟨b, hb, he⟩ := hdrop (by simp [hrefused])
  obtain ⟨-, rfl⟩ : 2 * b = 4 ∧ b = 2 := by simpa [eq_comm] using hrefused.symm.trans he
  obtain ⟨hempty, -⟩ := hinsert ⟨4000000000, 8, 3⟩ (by simp [htaken])
  obtain ⟨hinserted, hdropped, -⟩ :=
    hbatch [⟨0, 0, 0⟩, ⟨7, 1, 2⟩, ⟨4000000000, 8, 3⟩, ⟨0, 0, 0⟩, ⟨1, 0, 0⟩] _ rfl
  exact ⟨_, h, rfl, hrefused, hb, hempty.mp htaken, _, rfl, hinserted.trans (by decide), hdropped.trans (by decide)⟩

end Octree

end VoxelOctree
