import Mathlib.Data.Finset.Prod
import VoxelOctree.Proofs.Octree.Capacity

namespace VoxelOctree

def taken (done : List Attempt) : List Point :=
  (done.filter fun a => a.result = .ok ()).map Attempt.point

theorem mem_taken_iff {done : List Attempt} {p : Point} :
    p ∈ taken done ↔ ∃ a ∈ done, a.result = .ok () ∧ a.point = p := by
  simp only [taken, List.mem_map, List.mem_filter, decide_eq_true_eq, and_assoc]

-- Between one and two there is room for no number, and two is a plane itself.
theorem planesBelow_ne_one {d c : Nat} (hd : 2 ≤ d) (hc : ¬ OnPlane d c) : planesBelow d c ≠ 1 := by
  intro hone
  have hlow : 2 ^ 0 < c := by
    refine (lt_planesBelow_iff (d := d) (by omega)).mp ?_
    rw [hone]
    exact Nat.zero_lt_one
  have hhigh : c ≤ 2 ^ 1 := by
    refine Nat.not_lt.mp fun h => ?_
    have := (lt_planesBelow_iff (d := d) (by omega)).mpr h
    omega
  exact hc ⟨1, by omega, by omega⟩

namespace Point

variable {d : Nat} {p : Point}

theorem Kept.route_eq (h : p.Kept d) : p.route d = slots (p.levels d) d := by
  apply (p.route_prefix (Nat.le_refl d)).eq_of_length
  rw [(length_route_iff p d).mpr h, length_slots]

theorem Kept.levels_mem (h : p.Kept d) (hd : 2 ≤ d) {m : Nat} (hm : m ∈ (p.levels d).toList) :
    m ∈ (Finset.range (d + 1)).erase 1 := by
  rw [levels, Vec3.toList_map, List.mem_map] at hm
  obtain ⟨c, hc, rfl⟩ := hm
  exact Finset.mem_erase.mpr ⟨planesBelow_ne_one hd (h c hc),
    Finset.mem_range.mpr (Nat.lt_succ_of_le (planesBelow_le d c.toNat))⟩

end Point

theorem Vec3.card_le {s : Finset (Vec3 Nat)} (axis : Finset Nat) (h : ∀ v ∈ s, ∀ m ∈ v.toList, m ∈ axis) :
    s.card ≤ axis.card ^ 3 := by
  have hsub : s ⊆ (axis ×ˢ axis ×ˢ axis).image fun m => ⟨m.1, m.2.1, m.2.2⟩ := by
    intro v hv
    have hmem := h v hv
    refine Finset.mem_image.mpr ⟨(v.x, v.y, v.z), ?_, rfl⟩
    simp only [Finset.mem_product]
    exact ⟨hmem v.x (by simp [toList]), hmem v.y (by simp [toList]), hmem v.z (by simp [toList])⟩
  refine (Finset.card_le_card hsub).trans (Finset.card_image_le.trans ?_)
  simp only [Finset.card_product]
  apply le_of_eq
  ring

namespace Octree

def locate? (t : Octree) (p : Point) : Option Nat :=
  t.follow 0 (p.route t.depth)

namespace Grown

variable {d : Nat} {t : Octree} {done : List Attempt}

theorem kept_of_taken (h : Grown d t done) {p : Point} (hp : p ∈ taken done) : p.Kept d := by
  obtain ⟨a, ha, hr, rfl⟩ := mem_taken_iff.mp hp
  exact (h.ok_iff a ha (by simp [Attempt.isFull, hr])).mp hr

theorem leafAt_iff_taken (h : Grown d t done) (path : List Nat) :
    t.LeafAt path ↔ ∃ p ∈ taken done, p.route d = path := by
  rw [h.leafAt_iff]
  constructor
  · rintro ⟨a, ha, hr, rfl⟩
    exact ⟨a.point, mem_taken_iff.mpr ⟨a, ha, hr, rfl⟩, rfl⟩
  · rintro ⟨p, hp, rfl⟩
    obtain ⟨a, ha, hr, rfl⟩ := mem_taken_iff.mp hp
    exact ⟨a, ha, hr, rfl⟩

theorem exists_leaf (h : Grown d t done) {p : Point} (hp : p ∈ taken done) :
    ∃ id, t.locate? p = some id ∧ t.nodes[id]? = some ⟨0, .leaf⟩ := by
  rw [locate?, h.depth_eq]
  exact (h.leafAt_iff_taken _).mpr ⟨p, hp, rfl⟩

theorem exists_taken (h : Grown d t done) {id : Nat} (hn : t.nodes[id]? = some ⟨0, .leaf⟩) :
    ∃ p ∈ taken done, t.locate? p = some id := by
  obtain ⟨path, hpath⟩ := h.arena.exists_path id (lt_of_node hn)
  obtain ⟨p, hp, rfl⟩ := (h.leafAt_iff_taken path).mp ⟨id, hpath, hn⟩
  refine ⟨p, hp, ?_⟩
  rw [locate?, h.depth_eq]
  exact hpath

theorem locate?_eq_iff (h : Grown d t done) {p q : Point} (hp : p ∈ taken done) (hq : q ∈ taken done) :
    t.locate? p = t.locate? q ↔ p.levels d = q.levels d := by
  rw [← Point.route_eq_iff (h.kept_of_taken hp) (h.kept_of_taken hq), locate?, locate?, h.depth_eq]
  constructor
  · intro he
    obtain ⟨id, hid, -⟩ := (h.leafAt_iff_taken _).mpr ⟨p, hp, rfl⟩
    exact h.arena.path_unique hid (he.symm.trans hid)
  · intro he
    rw [he]

theorem leafCount_eq (h : Grown d t done) : t.leafCount = ((taken done).map (Point.levels d)).toFinset.card := by
  have himage : {path | t.LeafAt path} =
      (fun m => slots m d) '' ((taken done).map (Point.levels d)).toFinset := by
    ext path
    simp only [Set.mem_ofPred_eq, h.leafAt_iff_taken, Set.mem_image, List.coe_toFinset, List.mem_map]
    constructor
    · rintro ⟨p, hp, rfl⟩
      exact ⟨p.levels d, ⟨p, hp, rfl⟩, (h.kept_of_taken hp).route_eq.symm⟩
    · rintro ⟨_, ⟨p, hp, rfl⟩, rfl⟩
      exact ⟨p, hp, (h.kept_of_taken hp).route_eq⟩
  have hinjective : Set.InjOn (fun m => slots m d) ((taken done).map (Point.levels d)).toFinset := by
    simp only [Set.InjOn, List.coe_toFinset, List.mem_map]
    rintro _ ⟨p, hp, rfl⟩ _ ⟨q, hq, rfl⟩ he
    have hkp := h.kept_of_taken hp
    have hkq := h.kept_of_taken hq
    rw [← Point.route_eq_iff hkp hkq, hkp.route_eq, hkq.route_eq]
    exact he
  rw [← h.arena.ncard_leafAt, himage, hinjective.ncard_image, Set.ncard_coe_finset]

theorem leafCount_le (h : Grown d t done) (hd : 2 ≤ d) : t.leafCount ≤ d ^ 3 := by
  have haxis : ((Finset.range (d + 1)).erase 1).card = d := by
    rw [Finset.card_erase_of_mem (Finset.mem_range.mpr (by omega)), Finset.card_range, Nat.add_sub_cancel]
  rw [h.leafCount_eq]
  refine (Vec3.card_le ((Finset.range (d + 1)).erase 1) ?_).trans_eq (by rw [haxis])
  intro v hv m hm
  obtain ⟨p, hp, rfl⟩ := List.mem_map.mp (List.mem_toFinset.mp hv)
  exact (h.kept_of_taken hp).levels_mem hd hm

end Grown

/-- After any run there are as many leaves as the points that were taken have triples of levels, and points with one
triple are in one leaf. -/
theorem exec_leafCount {rootSize maxDepth : UInt32} {start : Octree}
    (hs : create rootSize.toNat maxDepth.toNat = .ok start) (commands : List Command) :
    ∃ d, rootSize.toNat = 2 ^ d ∧
      let t := start.exec commands
      let points := taken (start.attempts commands)
      t.leafCount = (points.map (Point.levels d)).toFinset.card ∧
      (∀ p ∈ points, ∃ id, t.locate? p = some id ∧ t.nodes[id]? = some ⟨0, .leaf⟩) ∧
      (∀ id, t.nodes[id]? = some ⟨0, .leaf⟩ → ∃ p ∈ points, t.locate? p = some id) ∧
      (∀ p ∈ points, ∀ q ∈ points, t.locate? p = t.locate? q ↔ p.levels d = q.levels d) ∧
      (2 ≤ d → t.leafCount ≤ d ^ 3) := by
  have hg := Grown.exec hs commands
  exact ⟨start.depth, (depth_create hs).symm, hg.leafCount_eq, fun p hp => hg.exists_leaf hp,
    fun id hn => hg.exists_taken hn, fun p hp q hq => hg.locate?_eq_iff hp hq, hg.leafCount_le⟩

theorem exec_leafCount_mixed : ∃ start : Octree, create 8 16 = .ok start ∧ ∃ t,
    start.exec [.limit 9, .insert ⟨7, 7, 7⟩, .limit 100,
      .insertAll [⟨7, 7, 7⟩, ⟨5, 6, 7⟩, ⟨3, 3, 3⟩, ⟨1, 0, 0⟩, ⟨7, 7, 7⟩], .insert ⟨7, 7, 7⟩] = t ∧
    t.leafCount = 2 ∧ t.locate? ⟨7, 7, 7⟩ = t.locate? ⟨5, 6, 7⟩ ∧ t.locate? ⟨7, 7, 7⟩ ≠ t.locate? ⟨3, 3, 3⟩ := by
  have hs : create (8 : UInt32).toNat (16 : UInt32).toNat = .ok ⟨3, maxNodes, #[⟨3, .empty⟩]⟩ := rfl
  obtain ⟨d, hd, hcount, -, -, hleaf, -⟩ := exec_leafCount hs [.limit 9, .insert ⟨7, 7, 7⟩, .limit 100,
    .insertAll [⟨7, 7, 7⟩, ⟨5, 6, 7⟩, ⟨3, 3, 3⟩, ⟨1, 0, 0⟩, ⟨7, 7, 7⟩], .insert ⟨7, 7, 7⟩]
  obtain rfl : 3 = d := Nat.pow_right_injective (Nat.le_refl 2) hd
  refine ⟨_, hs, _, rfl, hcount.trans (by decide), ?_, fun he => ?_⟩
  · exact (hleaf ⟨7, 7, 7⟩ (by decide) ⟨5, 6, 7⟩ (by decide)).mpr (by decide)
  · exact absurd ((hleaf ⟨7, 7, 7⟩ (by decide) ⟨3, 3, 3⟩ (by decide)).mp he) (by decide)

end Octree

end VoxelOctree
