import Mathlib.Algebra.BigOperators.Group.Finset.Basic
import Mathlib.Algebra.Order.BigOperators.Group.Finset
import Mathlib.Data.Finset.Prod
import Mathlib.Tactic.Ring
import VoxelOctree.Proofs.Flatten.Walk
import VoxelOctree.Proofs.Octree.Attempts
import VoxelOctree.Proofs.Octree.Count

/-!
How large an arena can get. Along each axis a route is below the planes up to some plane and above them from
there on, so `j` planes leave `j + 1` courses, and no number of points splits more than `(j + 1) ^ 3` nodes at
depth `j`.
-/

namespace VoxelOctree

def Side.ofRank (k m : Nat) : Side :=
  if k < m then .above else .below

def slots (m : Vec3 Nat) : (j : Nat) → List Nat
  | 0 => []
  | j + 1 => (Octant.ofSides (m.map (Side.ofRank j))).val :: slots m j

theorem length_slots (m : Vec3 Nat) (j : Nat) : (slots m j).length = j := by
  induction j with
  | zero => rfl
  | succ j ih => rw [slots, List.length_cons, ih]

theorem take_slots (m : Vec3 Nat) (e j : Nat) : (slots m (e + j)).take j = slots (m.map (· - e)) j := by
  induction j with
  | zero => rfl
  | succ j ih =>
    have hrank (c : Nat) : Side.ofRank (e + j) c = Side.ofRank j (c - e) := by
      simp only [Side.ofRank, Nat.lt_sub_iff_add_lt']
    rw [← Nat.add_assoc, slots, slots, List.take_succ_cons, ih]
    simp only [Vec3.map, hrank]

theorem lt_planesBelow_iff {d c k : Nat} (hk : k < d) : k < planesBelow d c ↔ 2 ^ k < c := by
  induction d with
  | zero => exact absurd hk (Nat.not_lt_zero k)
  | succ d ih =>
    have hle := planesBelow_le d c
    rw [planesBelow_succ]
    by_cases hc : 2 ^ d < c
    · have hpow : 2 ^ k ≤ 2 ^ d := Nat.pow_le_pow_right (by decide) (Nat.le_of_lt_succ hk)
      rw [if_pos hc, planesBelow_of_lt hc]
      omega
    · rw [if_neg hc]
      rcases Nat.lt_succ_iff_lt_or_eq.mp hk with hk | rfl
      · exact ih hk
      · omega

theorem Side.of_eq_ofRank {d c k : Nat} {s : Side} (hk : k < d) (hs : Side.of c (2 ^ k) = some s) :
    Side.ofRank k (planesBelow d c) = s := by
  simp only [Side.ofRank, lt_planesBelow_iff hk]
  cases s with
  | below => exact if_neg (Nat.lt_asymm ((Side.of_eq_below_iff _ _).mp hs))
  | above => exact if_pos ((Side.of_eq_above_iff _ _).mp hs)

theorem Octant.eq_ofSides {p : Point} {d k : Nat} {o : Octant} (hk : k < d) (ho : Octant.ofPoint p (2 ^ k) = some o) :
    Octant.ofSides ((p.levels d).map (Side.ofRank k)) = o := by
  have hs := Octant.ofPoint_eq_some_iff.mp ho
  simp only [Vec3.map, Vec3.mk.injEq] at hs
  rw [← Octant.ofSides_sides o]
  simp only [Point.levels, Vec3.map, Side.of_eq_ofRank hk hs.1, Side.of_eq_ofRank hk hs.2.1,
    Side.of_eq_ofRank hk hs.2.2]

theorem Point.route_prefix (p : Point) {j d : Nat} (hj : j ≤ d) : p.route j <+: slots (p.levels d) j := by
  induction j with
  | zero => exact List.nil_prefix
  | succ j ih =>
    rw [route, slots]
    cases ho : Octant.ofPoint p (2 ^ j) with
    | none => exact List.nil_prefix
    | some k => exact List.cons_prefix_cons.mpr ⟨by rw [Octant.eq_ofSides hj ho], ih (Nat.le_of_succ_le hj)⟩

def crossings (d : Nat) : Finset (List Nat) :=
  (Finset.range d).biUnion fun j =>
    (Finset.range (j + 1) ×ˢ Finset.range (j + 1) ×ˢ Finset.range (j + 1)).image fun m => slots ⟨m.1, m.2.1, m.2.2⟩ j

theorem mem_crossings {p : Point} {d : Nat} {path : List Nat} (h : Passes (p.route d) path) : path ∈ crossings d := by
  obtain ⟨slot, hp⟩ := h
  have hlong := hp.trans (p.route_prefix (Nat.le_refl d))
  have hlt : path.length < d := by
    have hle := hlong.length_le
    rwa [length_slots, List.length_append, List.length_singleton] at hle
  obtain ⟨e, rfl⟩ : ∃ e, d = e + path.length := ⟨d - path.length, by omega⟩
  have hpath := List.prefix_iff_eq_take.mp ((List.prefix_append path [slot]).trans hlong)
  rw [take_slots] at hpath
  let m := (p.levels (e + path.length)).map (· - e)
  have hbound (c : UInt32) : planesBelow (e + path.length) c.toNat - e < path.length + 1 := by
    have := planesBelow_le (e + path.length) c.toNat
    omega
  refine Finset.mem_biUnion.mpr ⟨path.length, Finset.mem_range.mpr hlt, ?_⟩
  refine Finset.mem_image.mpr ⟨(m.x, m.y, m.z), ?_, hpath.symm⟩
  simp [m, Point.levels, Vec3.map, hbound]

theorem card_crossings_le (d : Nat) : (crossings d).card ≤ ∑ j ∈ Finset.range d, (j + 1) ^ 3 := by
  refine Finset.card_biUnion_le.trans (Finset.sum_le_sum fun j _ => Finset.card_image_le.trans ?_)
  simp only [Finset.card_product, Finset.card_range]
  apply le_of_eq
  ring

theorem sum_cubes (d : Nat) : 4 * ∑ j ∈ Finset.range d, (j + 1) ^ 3 = d ^ 2 * (d + 1) ^ 2 := by
  induction d with
  | zero => rfl
  | succ d ih =>
    rw [Finset.sum_range_succ, Nat.mul_add, ih]
    ring

def nodeBound (d : Nat) : Nat :=
  1 + 2 * d ^ 2 * (d + 1) ^ 2

theorem ncard_le_of_crossed {d : Nat} {crossed : Set (List Nat)}
    (h : ∀ path ∈ crossed, ∃ p : Point, Passes (p.route d) path) : 1 + 8 * crossed.ncard ≤ nodeBound d := by
  have hsub : crossed ⊆ crossings d := by
    intro path hp
    obtain ⟨p, hp⟩ := h path hp
    exact mem_crossings hp
  have hle := Set.ncard_le_ncard hsub (crossings d).finite_toSet
  rw [Set.ncard_coe_finset] at hle
  have hcard := card_crossings_le d
  have hsum := sum_cubes d
  rw [nodeBound, Nat.mul_assoc, ← hsum]
  omega

namespace Octree

def HasRoom (t : Octree) : Prop :=
  (∀ p full, (t.insert p).2 ≠ .error (.arenaFull full)) ∧
    ∀ points, ∃ report, (t.insertAll points).outcome = .ok report

theorem Arena.limit_insert {t : Octree} (h : Arena t) (p : Point) : (t.insert p).1.limit = t.limit := by
  obtain ⟨trail, hd, -⟩ := h.insert_spec p
  exact hd.limit_eq

namespace Grown

variable {d : Nat} {t : Octree} {done : List Attempt}

theorem nodeCount_le (h : Grown d t done) : t.nodeCount ≤ nodeBound d := by
  rw [h.arena.nodeCount_eq]
  apply ncard_le_of_crossed
  intro path hp
  obtain ⟨a, -, hp⟩ := h.exists_passes path hp
  exact ⟨a.point, hp⟩

-- The node that found no room is not split, although the point would go on from there.
theorem exists_unsplit (h : Grown d t done) {p : Point} {full : ArenaFull}
    (hr : (t.insert p).2 = .error (.arenaFull full)) :
    full = ⟨(t.insert p).1.nodeCount, (t.insert p).1.limit⟩ ∧ (t.insert p).1.limit < (t.insert p).1.nodeCount + 8 ∧
      ∃ trail, Passes (p.route d) trail ∧ ¬ (t.insert p).1.SplitAt trail := by
  obtain ⟨trail, hd, -⟩ := h.arena.insert_spec p
  have hpass := hd.passes_of_full hr
  obtain ⟨stop, n, hp, hn, hend⟩ := hd.exists_stop h.arena
  rw [hr] at hend
  obtain ⟨hpayload, hfull, hk, -⟩ := hend
  rw [h.depth_eq] at hpass
  refine ⟨hpayload, hfull, trail, hpass, ?_⟩
  rw [splitAt_iff_node hp hn, hk]
  simp

theorem insert_ne_full (h : Grown d t done) (hl : nodeBound d ≤ t.limit) (p : Point) (full : ArenaFull) :
    (t.insert p).2 ≠ .error (.arenaFull full) := by
  intro hr
  obtain ⟨-, hfull, trail, hpass, hnew⟩ := h.exists_unsplit hr
  have hg := h.insert p
  rw [h.arena.limit_insert, hg.arena.nodeCount_eq] at hfull
  have hcard := Set.ncard_insert_of_notMem (s := {path | (t.insert p).1.SplitAt path}) hnew hg.arena.finite_splitAt
  have hcrossed : ∀ path ∈ Insert.insert trail {path | (t.insert p).1.SplitAt path},
      ∃ q : Point, Passes (q.route d) path := by
    rintro path (rfl | hp)
    · exact ⟨p, hpass⟩
    · obtain ⟨a, -, hp⟩ := hg.exists_passes path hp
      exact ⟨a.point, hp⟩
  have hle := ncard_le_of_crossed hcrossed
  omega

theorem run_full_eq_none (h : Grown d t done) (hl : nodeBound d ≤ t.limit) (points : List Point)
    (report : InsertReport) : (Batch.run t report points).full = none := by
  induction points generalizing t done report with
  | nil => rfl
  | cons p rest ih =>
    have hp := h.insert_ne_full hl p
    have hg := h.insert p
    have hlimit := h.arena.limit_insert p
    unfold Batch.run
    rcases hr : t.insert p with ⟨t', (drop | full) | ⟨⟩⟩ <;> rw [hr] at hp hg hlimit
    · exact ih hg (hlimit ▸ hl) _
    · exact absurd rfl (hp full)
    · exact ih hg (hlimit ▸ hl) _

theorem hasRoom (h : Grown d t done) (hl : nodeBound d ≤ t.limit) : t.HasRoom := by
  refine ⟨h.insert_ne_full hl, fun points => ⟨(t.insertAll points).report, ?_⟩⟩
  rw [Batch.outcome, insertAll, h.run_full_eq_none hl]

end Grown

theorem Arena.limit_apply {t : Octree} (h : Arena t) {c : Command} (hc : ∀ n, c ≠ .limit n) :
    (c.apply t).limit = t.limit := by
  cases c with
  | limit n => exact absurd rfl (hc n)
  | insert p => exact h.limit_insert p
  | insertAll points =>
    refine (run_induction (motive := fun s _ => Arena s ∧ s.limit = t.limit) ?_ points .empty [] ⟨h, rfl⟩).2
    rintro s - p ⟨ha, hs⟩
    exact ⟨ha.steps (insert_steps p ha), (ha.limit_insert p).trans hs⟩

theorem Arena.limit_exec {t : Octree} (h : Arena t) {commands : List Command} (hc : ∀ n, .limit n ∉ commands) :
    (t.exec commands).limit = t.limit := by
  induction commands generalizing t with
  | nil => rfl
  | cons c rest ih =>
    have ha := h.steps (apply_steps c h)
    have hrest := ih ha fun n hn => hc n (List.mem_cons_of_mem c hn)
    refine hrest.trans (h.limit_apply fun n he => hc n ?_)
    rw [he]
    exact List.mem_cons_self

theorem nodeBound_le {d : Nat} (hd : d ≤ 31) : nodeBound d ≤ maxNodes := by
  have hsquare : d ^ 2 ≤ 31 ^ 2 := Nat.pow_le_pow_left hd 2
  have hnext : (d + 1) ^ 2 ≤ 32 ^ 2 := Nat.pow_le_pow_left (Nat.succ_le_succ hd) 2
  calc nodeBound d ≤ 1 + 2 * 31 ^ 2 * 32 ^ 2 :=
        Nat.add_le_add_left (Nat.mul_le_mul (Nat.mul_le_mul_left 2 hsquare) hnext) 1
    _ ≤ maxNodes := by decide

/-- The number of nodes is bounded by the depth alone, so an arena with the default limit never gets full. -/
theorem exec_hasRoom {rootSize maxDepth : UInt32} {start : Octree}
    (hs : create rootSize.toNat maxDepth.toNat = .ok start) (commands : List Command) :
    ∃ d ≤ 31, rootSize.toNat = 2 ^ d ∧ 1 + 2 * d ^ 2 * (d + 1) ^ 2 ≤ maxNodes ∧
      let t := start.exec commands
      t.nodeCount ≤ 1 + 2 * d ^ 2 * (d + 1) ^ 2 ∧ (1 + 2 * d ^ 2 * (d + 1) ^ 2 ≤ t.limit → t.HasRoom) ∧
        ((∀ n, .limit n ∉ commands) → t.limit = maxNodes ∧ t.HasRoom ∧
          ∀ (resolve : Resolver) (anchor : Vec3 Single), ∃ records : Array Record,
            t.flatten resolve anchor = .ok records ∧ records.size = t.nodeCount ∧
              ∀ i < records.size, (UInt32.ofNat i).toNat = i) := by
  have hd : start.depth ≤ 31 := Nat.le_of_lt_succ (depth_lt_of_create hs rootSize.toNat_lt_size)
  have hg := Grown.exec hs commands
  refine ⟨start.depth, hd, (depth_create hs).symm, nodeBound_le hd, hg.nodeCount_le, hg.hasRoom, fun hc => ?_⟩
  have hlimit : (start.exec commands).limit = maxNodes := by
    rw [(Arena.create hs).limit_exec hc]
    obtain ⟨depth, -, -, rfl⟩ := create_eq_ok_iff.mp hs
    rfl
  refine ⟨hlimit, hg.hasRoom (hlimit ▸ nodeBound_le hd), fun resolve anchor => ?_⟩
  have hsize : ((start.exec commands).cell.records resolve 0 (start.exec commands).depth anchor).toArray.size =
      (start.exec commands).nodeCount := by
    rw [List.size_toArray, Cell.length_records, hg.arena.count_cell]
  refine ⟨_, flatten_eq hg.arena resolve anchor, hsize, fun i hi => ?_⟩
  rw [hsize] at hi
  exact hg.arena.toNat_ofNat hi.le

theorem exec_hasRoom_largest : ∃ start : Octree, create (4 : UInt32).toNat (16 : UInt32).toNat = .ok start ∧
    let t := start.exec [.insert ⟨3, 1, 3⟩, .insertAll [⟨0, 0, 0⟩, ⟨0, 0, 3⟩, ⟨0, 3, 0⟩, ⟨0, 3, 3⟩, ⟨3, 0, 0⟩,
      ⟨3, 0, 3⟩, ⟨3, 3, 0⟩, ⟨4000000000, 3, 77⟩]]
    t.nodeCount = 1 + 2 * 2 ^ 2 * (2 + 1) ^ 2 ∧ t.HasRoom := by
  have hs : create (4 : UInt32).toNat (16 : UInt32).toNat = .ok ⟨2, maxNodes, #[⟨2, .empty⟩]⟩ := rfl
  obtain ⟨d, -, -, -, -, -, hroom⟩ := exec_hasRoom hs [.insert ⟨3, 1, 3⟩, .insertAll [⟨0, 0, 0⟩, ⟨0, 0, 3⟩,
    ⟨0, 3, 0⟩, ⟨0, 3, 3⟩, ⟨3, 0, 0⟩, ⟨3, 0, 3⟩, ⟨3, 3, 0⟩, ⟨4000000000, 3, 77⟩]]
  exact ⟨_, hs, by decide, (hroom (by simp)).2.1⟩

end Octree

end VoxelOctree
