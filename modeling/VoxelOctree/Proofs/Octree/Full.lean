import Mathlib.Data.Finset.Union
import VoxelOctree.Proofs.Octree.Capacity
import VoxelOctree.Proofs.Octree.Frame

/-!
When a batch fills a fresh arena. The points say which nodes have to be split; the batch is given up when the
blocks of their children do not all fit, and then the arena holds as many whole blocks as do.
-/

namespace VoxelOctree

namespace Point

def Clear (d j : Nat) (p : Point) : Prop :=
  ∀ i ≤ j, ∀ c ∈ p.toList, c.toNat ≠ 2 ^ (d - 1 - i)

instance (d j : Nat) : DecidablePred (Clear d j) := fun p =>
  @Nat.decidableBallLE j (fun i _ => ∀ c ∈ p.toList, c.toNat ≠ 2 ^ (d - 1 - i)) fun _ _ => List.decidableBAll _ _

def pattern (d j : Nat) (p : Point) : List Octant :=
  (List.range j).filterMap fun i => Octant.ofPoint p (2 ^ (d - 1 - i))

variable {d j : Nat} {p : Point}

theorem clear_zero_iff : Clear (d + 1) 0 p ↔ ∃ k, Octant.ofPoint p (2 ^ d) = some k := by
  rw [← Option.ne_none_iff_exists', Ne, Octant.ofPoint_eq_none_iff]
  simp [Clear]

theorem clear_succ_iff : Clear (d + 1) (j + 1) p ↔ (∃ k, Octant.ofPoint p (2 ^ d) = some k) ∧ Clear d j p := by
  have hplane (i : Nat) : d + 1 - 1 - (i + 1) = d - 1 - i := by omega
  rw [← clear_zero_iff]
  constructor
  · intro h
    refine ⟨fun i hi => h i (by omega), fun i hi => ?_⟩
    rw [← hplane]
    exact h (i + 1) (Nat.succ_le_succ hi)
  · rintro ⟨hfirst, hrest⟩ i hi
    cases i with
    | zero => exact hfirst 0 (Nat.le_refl 0)
    | succ i =>
      rw [hplane]
      exact hrest i (Nat.le_of_succ_le_succ hi)

theorem pattern_succ {k : Octant} (hk : Octant.ofPoint p (2 ^ d) = some k) :
    p.pattern (d + 1) (j + 1) = k :: p.pattern d j := by
  have hplane : (fun i => Octant.ofPoint p (2 ^ (d + 1 - 1 - i))) ∘ Nat.succ =
      fun i => Octant.ofPoint p (2 ^ (d - 1 - i)) := by
    funext i
    simp only [Function.comp_apply, Nat.succ_eq_add_one]
    congr 2
    omega
  rw [pattern, List.range_succ_eq_map, List.filterMap_cons, List.filterMap_map, hplane, Nat.add_sub_cancel,
    Nat.sub_zero, hk, pattern]

theorem clear_iff_lt (hj : j < d) : p.Clear d j ↔ j < (p.route d).length := by
  induction d generalizing j with
  | zero => exact absurd hj (Nat.not_lt_zero j)
  | succ d ih =>
    cases j with
    | zero =>
      rw [clear_zero_iff, route]
      cases Octant.ofPoint p (2 ^ d) <;> simp
    | succ j =>
      rw [clear_succ_iff, route, ih (Nat.lt_of_succ_lt_succ hj)]
      cases Octant.ofPoint p (2 ^ d) <;> simp

theorem take_route (hj : j < (p.route d).length) : (p.route d).take j = (p.pattern d j).map Fin.val := by
  induction d generalizing j with
  | zero => exact absurd hj (Nat.not_lt_zero j)
  | succ d ih =>
    cases j with
    | zero => rfl
    | succ j =>
      cases hk : Octant.ofPoint p (2 ^ d) with
      | none => simp [route, hk] at hj
      | some k =>
        rw [pattern_succ hk, List.map_cons, ← ih (by simpa [route, hk] using hj), route, hk]
        rfl

end Point

/-- What has to be split in a tree of depth `d` for the points to get as far as they can: a number `j` and the first
`j` octants of a point that goes on from there. -/
def requiredSplits (d : Nat) (points : List Point) : Finset (Nat × List Octant) :=
  (Finset.range d).biUnion fun j => ((points.filter (Point.Clear d j)).map fun p => (j, p.pattern d j)).toFinset

theorem mem_requiredSplits_iff {d j : Nat} {points : List Point} {pattern : List Octant} :
    (j, pattern) ∈ requiredSplits d points ↔ j < d ∧ ∃ p ∈ points, p.Clear d j ∧ p.pattern d j = pattern := by
  simp only [requiredSplits, Finset.mem_biUnion, Finset.mem_range, List.mem_toFinset, List.mem_map, List.mem_filter,
    decide_eq_true_eq, Prod.mk.injEq]
  constructor
  · rintro ⟨_, hj, p, ⟨hp, hclear⟩, rfl, rfl⟩
    exact ⟨hj, p, hp, hclear, rfl⟩
  · rintro ⟨hj, p, hp, hclear, rfl⟩
    exact ⟨j, hj, p, ⟨hp, hclear⟩, rfl, rfl⟩

def Passed (d : Nat) (points : List Point) : Set (List Nat) :=
  {path | ∃ p ∈ points, Passes (p.route d) path}

theorem image_requiredSplits (d : Nat) (points : List Point) :
    (fun x : Nat × List Octant => x.2.map Fin.val) '' requiredSplits d points = Passed d points := by
  ext path
  simp only [Set.mem_image, Finset.mem_coe, Prod.exists, mem_requiredSplits_iff, Passed, Set.mem_ofPred_eq,
    passes_iff_take]
  constructor
  · rintro ⟨j, _, ⟨hj, p, hp, hclear, rfl⟩, rfl⟩
    have hlt := (Point.clear_iff_lt hj).mp hclear
    exact ⟨p, hp, j, hlt, Point.take_route hlt⟩
  · rintro ⟨p, hp, j, hlt, rfl⟩
    have hj : j < d := hlt.trans_le (by simpa [length_slots] using (p.route_prefix (Nat.le_refl d)).length_le)
    exact ⟨j, _, ⟨hj, p, hp, (Point.clear_iff_lt hj).mpr hlt, rfl⟩, (Point.take_route hlt).symm⟩

theorem injOn_requiredSplits (d : Nat) (points : List Point) :
    Set.InjOn (fun x : Nat × List Octant => x.2.map Fin.val) (requiredSplits d points) := by
  have hlength : ∀ x ∈ requiredSplits d points, x.1 = (x.2.map Fin.val).length := by
    rintro ⟨j, pattern⟩ hx
    obtain ⟨hj, p, -, hclear, rfl⟩ := mem_requiredSplits_iff.mp hx
    have hlt := (Point.clear_iff_lt hj).mp hclear
    rw [← Point.take_route hlt, List.length_take_of_le hlt.le]
  intro x hx y hy he
  have hj : x.1 = y.1 := by
    rw [hlength x hx, hlength y hy]
    exact congrArg List.length he
  exact Prod.ext hj (List.map_injective_iff.mpr Fin.val_injective he)

theorem finite_passed (d : Nat) (points : List Point) : (Passed d points).Finite := by
  rw [← image_requiredSplits]
  exact (requiredSplits d points).finite_toSet.image _

theorem ncard_passed (d : Nat) (points : List Point) : (Passed d points).ncard = (requiredSplits d points).card := by
  rw [← image_requiredSplits, (injOn_requiredSplits d points).ncard_image, Set.ncard_coe_finset]

theorem requiredSplits_congr {d : Nat} {points points' : List Point} (h : ∀ p, p ∈ points ↔ p ∈ points') :
    requiredSplits d points = requiredSplits d points' := by
  ext ⟨j, pattern⟩
  simp only [mem_requiredSplits_iff, h]

namespace Octree

theorem Descent.size_le {p : Point} {t t' : Octree} {id level : Nat} {trail : List Nat}
    {r : Except InsertError Unit} (hd : Descent p t id level trail t' r) :
    t'.nodeCount = t.nodeCount ∨ t'.nodeCount ≤ t.limit := by
  induction hd with
  | reach => exact .inl (size_setKind _ _ _)
  | plane => exact .inl rfl
  | full => exact .inl rfl
  | down hn hp hd ih => exact ih
  | split hn hp hl hd ih =>
    rcases ih with ih | ih
    · right
      rw [ih, nodeCount, size_subdivide]
      exact hl
    · exact .inr ih

def WithinLimit (t : Octree) : Prop :=
  t.nodeCount = 1 ∨ t.nodeCount ≤ t.limit

theorem withinLimit_create {rootSize maxDepth : Nat} {t : Octree} (h : create rootSize maxDepth = .ok t) (n : Nat) :
    (t.withLimit n).WithinLimit := by
  obtain ⟨depth, -, -, rfl⟩ := create_eq_ok_iff.mp h
  exact .inl rfl

theorem Arena.withinLimit_insert {t : Octree} (h : Arena t) (hw : t.WithinLimit) (p : Point) :
    (t.insert p).1.WithinLimit := by
  obtain ⟨trail, hd, -⟩ := h.insert_spec p
  rw [WithinLimit, h.limit_insert]
  rcases hd.size_le with hs | hs
  · rwa [hs]
  · exact .inr hs

structure Filled (d : Nat) (t : Octree) (points : List Point) (b : Batch) : Prop where
  arena : Arena b.tree
  limit_eq : b.tree.limit = t.limit
  withinLimit : b.tree.WithinLimit
  of_splitAt : ∀ path, b.tree.SplitAt path → t.SplitAt path ∨ path ∈ Passed d points
  splitAt : b.full = none → ∀ path, t.SplitAt path ∨ path ∈ Passed d points → b.tree.SplitAt path
  of_full : ∀ a, b.full = some a → a = ⟨b.tree.nodeCount, b.tree.limit⟩ ∧ b.tree.limit < b.tree.nodeCount + 8 ∧
    ∃ path ∈ Passed d points, ¬ b.tree.SplitAt path

namespace Grown

variable {d : Nat} {t : Octree} {done : List Attempt}

theorem of_splitAt_insert (h : Grown d t done) (p : Point) {path : List Nat} (hs : (t.insert p).1.SplitAt path) :
    t.SplitAt path ∨ Passes (p.route d) path := by
  obtain ⟨trail, hd, hsplit, -⟩ := h.arena.insert_spec p
  rw [← h.depth_eq]
  exact ((hsplit path).mp hs).imp_right fun hp => hp.mono hd.trail_prefix

theorem splitAt_insert (h : Grown d t done) {p : Point} (hr : ∀ a, (t.insert p).2 ≠ .error (.arenaFull a))
    {path : List Nat} (hs : t.SplitAt path ∨ Passes (p.route d) path) : (t.insert p).1.SplitAt path := by
  obtain ⟨trail, hd, hsplit, -⟩ := h.arena.insert_spec p
  rw [hsplit, hd.trail_eq_route hr, h.depth_eq]
  exact hs

theorem filled_nil (h : Grown d t done) (hw : t.WithinLimit) (report : InsertReport) :
    Filled d t [] ⟨t, report, none⟩ where
  arena := h.arena
  limit_eq := rfl
  withinLimit := hw
  of_splitAt _ hs := .inl hs
  splitAt := by
    rintro - path (hs | ⟨p, hp, -⟩)
    · exact hs
    · cases hp
  of_full := by simp

theorem filled_cons (h : Grown d t done) {p : Point} (hr : ∀ a, (t.insert p).2 ≠ .error (.arenaFull a))
    {rest : List Point} {b : Batch} (hb : Filled d (t.insert p).1 rest b) : Filled d t (p :: rest) b where
  arena := hb.arena
  limit_eq := hb.limit_eq.trans (h.arena.limit_insert p)
  withinLimit := hb.withinLimit
  of_splitAt path hs := by
    rcases hb.of_splitAt path hs with hs | ⟨q, hq, hs⟩
    · exact (h.of_splitAt_insert p hs).imp_right fun hs => ⟨p, List.mem_cons_self, hs⟩
    · exact .inr ⟨q, List.mem_cons_of_mem p hq, hs⟩
  splitAt hnone path hs := by
    apply hb.splitAt hnone
    rcases hs with hs | ⟨q, hq, hs⟩
    · exact .inl (h.splitAt_insert hr (.inl hs))
    · rcases List.mem_cons.mp hq with rfl | hq
      · exact .inl (h.splitAt_insert hr (.inr hs))
      · exact .inr ⟨q, hq, hs⟩
  of_full a ha := by
    obtain ⟨hpayload, hfull, path, ⟨q, hq, hs⟩, hnew⟩ := hb.of_full a ha
    exact ⟨hpayload, hfull, path, ⟨q, List.mem_cons_of_mem p hq, hs⟩, hnew⟩

theorem filled_full (h : Grown d t done) (hw : t.WithinLimit) {p : Point} {full : ArenaFull}
    (hr : (t.insert p).2 = .error (.arenaFull full)) (rest : List Point) (report : InsertReport) :
    Filled d t (p :: rest) ⟨(t.insert p).1, report, some full⟩ where
  arena := (h.insert p).arena
  limit_eq := h.arena.limit_insert p
  withinLimit := h.arena.withinLimit_insert hw p
  of_splitAt path hs := (h.of_splitAt_insert p hs).imp_right fun hs => ⟨p, List.mem_cons_self, hs⟩
  splitAt := by simp
  of_full := by
    rintro _ ⟨⟩
    obtain ⟨hpayload, hfull, trail, hs, hnew⟩ := h.exists_unsplit hr
    exact ⟨hpayload, hfull, trail, ⟨p, List.mem_cons_self, hs⟩, hnew⟩

theorem filled (h : Grown d t done) (hw : t.WithinLimit) (points : List Point) (report : InsertReport) :
    Filled d t points (Batch.run t report points) := by
  induction points generalizing t done report with
  | nil => exact h.filled_nil hw report
  | cons p rest ih =>
    have hnext := fun report => ih (h.insert p) (h.arena.withinLimit_insert hw p) report
    have hcons := fun hr report => h.filled_cons (p := p) hr (hnext report)
    have hfull := fun full (hr : (t.insert p).2 = .error (.arenaFull full)) => h.filled_full hw hr rest report
    unfold Batch.run
    rcases hr : t.insert p with ⟨t', (drop | full) | ⟨⟩⟩ <;> rw [hr] at hcons hfull
    · exact hcons (by simp) _
    · exact hfull full rfl
    · exact hcons (by simp) _

end Grown

namespace Filled

variable {d : Nat} {t : Octree} {points : List Point} {b : Batch}

theorem nodeCount_of_none (h : Filled d t points b) (hfresh : ∀ path, ¬ t.SplitAt path) (hnone : b.full = none) :
    b.tree.nodeCount = 1 + 8 * (requiredSplits d points).card := by
  have hsplit : {path | b.tree.SplitAt path} = Passed d points := by
    ext path
    exact ⟨fun hs => (h.of_splitAt path hs).resolve_left (hfresh path), fun hp => h.splitAt hnone path (.inr hp)⟩
  rw [h.arena.nodeCount_eq, hsplit, ncard_passed]

-- The node that was found without room is one that should have been split and was not.
theorem of_some (h : Filled d t points b) (hfresh : ∀ path, ¬ t.SplitAt path) {a : ArenaFull} (ha : b.full = some a) :
    a = ⟨b.tree.nodeCount, b.tree.limit⟩ ∧ b.tree.nodeCount = 1 + 8 * ((b.tree.limit - 1) / 8) ∧
      requiredSplits d points ≠ ∅ ∧ b.tree.limit < 1 + 8 * (requiredSplits d points).card := by
  obtain ⟨hpayload, hfull, path, hpath, hnew⟩ := h.of_full a ha
  have hsub : {path | b.tree.SplitAt path} ⊂ Passed d points :=
    ⟨fun path hs => (h.of_splitAt path hs).resolve_left (hfresh path), fun hle => hnew (hle hpath)⟩
  have hlt := Set.ncard_lt_ncard hsub (finite_passed d points)
  rw [ncard_passed] at hlt
  have hcount := h.arena.nodeCount_eq
  refine ⟨hpayload, ?_, Finset.card_pos.mp (Nat.zero_lt_of_lt hlt) |>.ne_empty, by omega⟩
  rcases h.withinLimit with hw | hw <;> omega

theorem withinLimit_of_none (h : Filled d t points b) (hfresh : ∀ path, ¬ t.SplitAt path) (hnone : b.full = none) :
    requiredSplits d points = ∅ ∨ 1 + 8 * (requiredSplits d points).card ≤ t.limit := by
  have hw := h.withinLimit
  rw [WithinLimit, h.nodeCount_of_none hfresh hnone, h.limit_eq] at hw
  exact hw.imp_left fun hw => Finset.card_eq_zero.mp (by omega)

theorem eq_of_fits (h : Filled d t points b) (hfresh : ∀ path, ¬ t.SplitAt path)
    (hfits : requiredSplits d points = ∅ ∨ 1 + 8 * (requiredSplits d points).card ≤ t.limit) :
    b.full = none ∧ b.tree.nodeCount = 1 + 8 * (requiredSplits d points).card := by
  cases hb : b.full with
  | none => exact ⟨rfl, h.nodeCount_of_none hfresh hb⟩
  | some a =>
    obtain ⟨-, -, hsome, hfull⟩ := h.of_some hfresh hb
    rw [h.limit_eq] at hfull
    exact absurd hfits (not_or.mpr ⟨hsome, Nat.not_le_of_lt hfull⟩)

theorem eq_of_not_fits (h : Filled d t points b) (hfresh : ∀ path, ¬ t.SplitAt path)
    (hfits : ¬ (requiredSplits d points = ∅ ∨ 1 + 8 * (requiredSplits d points).card ≤ t.limit)) :
    b.full = some ⟨1 + 8 * ((t.limit - 1) / 8), t.limit⟩ ∧ b.tree.nodeCount = 1 + 8 * ((t.limit - 1) / 8) := by
  cases hb : b.full with
  | none => exact absurd (h.withinLimit_of_none hfresh hb) hfits
  | some a =>
    obtain ⟨rfl, hcount, -, -⟩ := h.of_some hfresh hb
    rw [h.limit_eq] at hcount ⊢
    rw [hcount]
    exact ⟨rfl, rfl⟩

end Filled

/-- Whether a batch fills a fresh arena is known from the nodes that its points want split, and so is how many nodes
there are at the end. -/
theorem insertAll_full {rootSize maxDepth : UInt32} {start : Octree}
    (hs : create rootSize.toNat maxDepth.toNat = .ok start) (n : Nat) (points : List Point) :
    let d := start.depth
    let limit := min n maxNodes
    let required := requiredSplits d points
    let batch := (start.withLimit n).insertAll points
    rootSize.toNat = 2 ^ d ∧
      (required = ∅ ∨ 1 + 8 * required.card ≤ limit →
        batch.outcome = .ok batch.report ∧ batch.tree.nodeCount = 1 + 8 * required.card) ∧
      (¬ (required = ∅ ∨ 1 + 8 * required.card ≤ limit) →
        batch.outcome = .error (.arenaFull ⟨1 + 8 * ((limit - 1) / 8), limit⟩) ∧
          batch.tree.nodeCount = 1 + 8 * ((limit - 1) / 8)) ∧
      ∀ points', (∀ p, p ∈ points ↔ p ∈ points') →
        let batch' := (start.withLimit n).insertAll points'
        batch'.full = batch.full ∧ batch'.tree.nodeCount = batch.tree.nodeCount := by
  intro d limit required batch
  have hg : Grown d (start.withLimit n) [] := (Grown.create hs).withLimit n
  have hfresh (path : List Nat) : ¬ (start.withLimit n).SplitAt path := fun hp => by
    simpa using hg.exists_passes path hp
  have hfilled (points : List Point) : Filled d (start.withLimit n) points ((start.withLimit n).insertAll points) :=
    hg.filled (withinLimit_create hs n) points .empty
  refine ⟨(depth_create hs).symm, fun hfits => ?_, fun hfits => ?_, fun points' hp => ?_⟩
  · obtain ⟨hfull, hcount⟩ := (hfilled points).eq_of_fits hfresh hfits
    exact ⟨by simp only [batch, Batch.outcome, hfull], hcount⟩
  · obtain ⟨hfull, hcount⟩ := (hfilled points).eq_of_not_fits hfresh hfits
    exact ⟨by simp only [batch, Batch.outcome, hfull, limit]; rfl, hcount⟩
  · have hb' := hfilled points'
    have hsame : requiredSplits d points' = required := (requiredSplits_congr hp).symm
    by_cases hfits : required = ∅ ∨ 1 + 8 * required.card ≤ limit
    · obtain ⟨hfull, hcount⟩ := (hfilled points).eq_of_fits hfresh hfits
      obtain ⟨hfull', hcount'⟩ := hb'.eq_of_fits hfresh (by rwa [hsame])
      exact ⟨hfull'.trans hfull.symm, by rw [hcount', hsame]; exact hcount.symm⟩
    · obtain ⟨hfull, hcount⟩ := (hfilled points).eq_of_not_fits hfresh hfits
      obtain ⟨hfull', hcount'⟩ := hb'.eq_of_not_fits hfresh (by rwa [hsame])
      exact ⟨hfull'.trans hfull.symm, hcount'.trans hcount.symm⟩

theorem insertAll_full_mixed : ∃ start : Octree, create (4 : UInt32).toNat (16 : UInt32).toNat = .ok start ∧
    let points : List Point := [⟨1, 3, 1⟩, ⟨0, 0, 0⟩, ⟨3, 3, 3⟩, ⟨3, 0, 0⟩]
    (requiredSplits 2 points).card = 4 ∧ ((start.withLimit 33).insertAll points).tree.nodeCount = 33 ∧
      ((start.withLimit 32).insertAll points).outcome = .error (.arenaFull ⟨25, 32⟩) ∧
      ((start.withLimit 32).insertAll [⟨3, 0, 0⟩, ⟨3, 3, 3⟩, ⟨3, 0, 0⟩, ⟨1, 3, 1⟩, ⟨0, 0, 0⟩]).full = some ⟨25, 32⟩ ∧
      ((start.withLimit 0).insertAll points).outcome = .error (.arenaFull ⟨1, 0⟩) := by
  have hmem (p : Point) : p ∈ ([⟨1, 3, 1⟩, ⟨0, 0, 0⟩, ⟨3, 3, 3⟩, ⟨3, 0, 0⟩] : List Point) ↔
      p ∈ ([⟨3, 0, 0⟩, ⟨3, 3, 3⟩, ⟨3, 0, 0⟩, ⟨1, 3, 1⟩, ⟨0, 0, 0⟩] : List Point) := by
    simp only [List.mem_cons, List.not_mem_nil]
    tauto
  have hs : create (4 : UInt32).toNat (16 : UInt32).toNat = .ok ⟨2, maxNodes, #[⟨2, .empty⟩]⟩ := rfl
  have hcard : (requiredSplits 2 [⟨1, 3, 1⟩, ⟨0, 0, 0⟩, ⟨3, 3, 3⟩, ⟨3, 0, 0⟩]).card = 4 := by decide +kernel
  have hsome : requiredSplits 2 [⟨1, 3, 1⟩, ⟨0, 0, 0⟩, ⟨3, 3, 3⟩, ⟨3, 0, 0⟩] ≠ ∅ := by decide +kernel
  have hfull : ((Octree.withLimit ⟨2, maxNodes, #[⟨2, .empty⟩]⟩ 32).insertAll
      [⟨1, 3, 1⟩, ⟨0, 0, 0⟩, ⟨3, 3, 3⟩, ⟨3, 0, 0⟩]).full = some ⟨25, 32⟩ := by decide
  obtain ⟨-, hall, -⟩ := insertAll_full hs 33 [⟨1, 3, 1⟩, ⟨0, 0, 0⟩, ⟨3, 3, 3⟩, ⟨3, 0, 0⟩]
  obtain ⟨-, -, hfew, hsame⟩ := insertAll_full hs 32 [⟨1, 3, 1⟩, ⟨0, 0, 0⟩, ⟨3, 3, 3⟩, ⟨3, 0, 0⟩]
  obtain ⟨-, -, hnone, -⟩ := insertAll_full hs 0 [⟨1, 3, 1⟩, ⟨0, 0, 0⟩, ⟨3, 3, 3⟩, ⟨3, 0, 0⟩]
  simp only [hcard, hsome, false_or] at hall hfew hnone
  exact ⟨_, hs, hcard, (hall (by decide)).2, (hfew (by decide)).1, (hsame _ hmem).1.trans hfull, (hnone (by decide)).1⟩

end Octree

end VoxelOctree
