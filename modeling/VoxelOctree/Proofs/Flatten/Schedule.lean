import VoxelOctree.Proofs.Flatten.Walk
import VoxelOctree.Proofs.Octree.Attempts
import VoxelOctree.Proofs.Octree.Count

namespace VoxelOctree

namespace Octree

-- Slots, and not numbers, are what two arenas have in common.
theorem Arena.cellAt_congr {t t' : Octree} (h : Arena t) (h' : Arena t')
    (hsplit : ∀ path, t.SplitAt path ↔ t'.SplitAt path) (hleaf : ∀ path, t.LeafAt path ↔ t'.LeafAt path)
    {path : List Nat} {id id' level : Nat} {kind kind' : Kind} (hp : t.follow 0 path = some id)
    (hp' : t'.follow 0 path = some id') (hn : t.nodes[id]? = some ⟨level, kind⟩)
    (hn' : t'.nodes[id']? = some ⟨level, kind'⟩) : t.cellAt id level = t'.cellAt id' level := by
  revert path id' kind'
  refine h.induction_on (motive := fun id level => ∀ {path : List Nat} {id' : Nat} {kind' : Kind},
    t.follow 0 path = some id → t'.follow 0 path = some id' → t'.nodes[id']? = some ⟨level, kind'⟩ →
      t.cellAt id level = t'.cellAt id' level) ?_ ?_ ?_ hn
  · intro id level hn path id' kind' hp hp' hn'
    have hs := hsplit path
    have hl := hleaf path
    rw [splitAt_iff_node hp hn, splitAt_iff_node hp' hn'] at hs
    rw [h.leafAt_iff_node hp hn, h'.leafAt_iff_node hp' hn'] at hl
    cases kind' with
    | empty => rw [cellAt_empty hn, cellAt_empty hn']
    | leaf => simp at hl
    | internal first => simp at hs
  · intro id hn path id' kind' hp hp' hn'
    have hl := hleaf path
    rw [h.leafAt_iff_node hp hn, h'.leafAt_iff_node hp' hn'] at hl
    obtain rfl : kind' = .leaf := hl.mp rfl
    rw [cellAt_leaf hn, cellAt_leaf hn']
  · intro id level first hn ih path id' kind' hp hp' hn'
    have hs := hsplit path
    rw [splitAt_iff_node hp hn, splitAt_iff_node hp' hn'] at hs
    obtain ⟨first', rfl⟩ : ∃ first', kind' = .internal first' := hs.mp ⟨first, rfl⟩
    rw [cellAt_internal hn, cellAt_internal hn']
    congr 1
    funext k
    obtain ⟨kind, hc⟩ := h'.child hn' k
    exact ih k (Arena.follow_child hp hn k) (Arena.follow_child hp' hn' k) hc

theorem Arena.cell_congr {t t' : Octree} (h : Arena t) (h' : Arena t') (hdepth : t.depth = t'.depth)
    (hsplit : ∀ path, t.SplitAt path ↔ t'.SplitAt path) (hleaf : ∀ path, t.LeafAt path ↔ t'.LeafAt path) :
    t.cell = t'.cell := by
  obtain ⟨kind, hr⟩ := h.root
  obtain ⟨kind', hr'⟩ := h'.root
  have hstart : t.follow 0 [] = some 0 := rfl
  rw [hdepth] at hr
  rw [cell, cell, hdepth]
  exact h.cellAt_congr h' hsplit hleaf hstart rfl hr hr'

theorem Arena.counts_congr {t t' : Octree} (h : Arena t) (h' : Arena t')
    (hsplit : ∀ path, t.SplitAt path ↔ t'.SplitAt path) (hleaf : ∀ path, t.LeafAt path ↔ t'.LeafAt path) :
    t.nodeCount = t'.nodeCount ∧ t.leafCount = t'.leafCount := by
  constructor
  · rw [h.nodeCount_eq, h'.nodeCount_eq]
    simp only [hsplit]
  · rw [← h.ncard_leafAt, ← h'.ncard_leafAt]
    simp only [hleaf]

def Settled (done : List Attempt) : Prop :=
  ∀ a ∈ done, ∃ b ∈ done, b.point = a.point ∧ b.isFull = false

instance (done : List Attempt) : Decidable (Settled done) :=
  List.decidableBAll _ done

namespace Grown

variable {d : Nat} {t : Octree} {done : List Attempt}

theorem splitAt_iff (h : Grown d t done) (hs : Settled done) (path : List Nat) :
    t.SplitAt path ↔ ∃ p ∈ done.map Attempt.point, Passes (p.route d) path := by
  constructor
  · intro hp
    obtain ⟨a, ha, hp⟩ := h.exists_passes path hp
    exact ⟨a.point, List.mem_map_of_mem ha, hp⟩
  · rintro ⟨p, hp, hpass⟩
    obtain ⟨a, ha, rfl⟩ := List.mem_map.mp hp
    obtain ⟨b, hb, he, hf⟩ := hs a ha
    rw [← he] at hpass
    exact h.splitAt b hb hf path hpass

theorem leafAt_iff_kept (h : Grown d t done) (hs : Settled done) (path : List Nat) :
    t.LeafAt path ↔ ∃ p ∈ done.map Attempt.point, p.Kept d ∧ path = p.route d := by
  rw [h.leafAt_iff]
  constructor
  · rintro ⟨a, ha, hok, rfl⟩
    have hf : a.isFull = false := by simp [Attempt.isFull, hok]
    exact ⟨a.point, List.mem_map_of_mem ha, (h.ok_iff a ha hf).mp hok, rfl⟩
  · rintro ⟨p, hp, hk, rfl⟩
    obtain ⟨a, ha, rfl⟩ := List.mem_map.mp hp
    obtain ⟨b, hb, he, hf⟩ := hs a ha
    rw [← he] at hk ⊢
    exact ⟨b, hb, (h.ok_iff b hb hf).mpr hk, rfl⟩

end Grown

/-- Two runs that tried the same points, each of them at least once with room for it, leave the same tree. -/
theorem exec_schedule {rootSize maxDepth maxDepth' : UInt32} {start start' : Octree}
    (hs : create rootSize.toNat maxDepth.toNat = .ok start)
    (hs' : create rootSize.toNat maxDepth'.toNat = .ok start') (commands commands' : List Command)
    (hpoints : ∀ p, p ∈ (start.attempts commands).map Attempt.point ↔
      p ∈ (start'.attempts commands').map Attempt.point)
    (hsettled : Settled (start.attempts commands)) (hsettled' : Settled (start'.attempts commands')) :
    let t := start.exec commands
    let t' := start'.exec commands'
    t.nodeCount = t'.nodeCount ∧ t.leafCount = t'.leafCount ∧ t.cell = t'.cell ∧
      ∀ (resolve : Resolver) (anchor : Vec3 Single), ∃ records : Array Record,
        t.flatten resolve anchor = .ok records ∧ t'.flatten resolve anchor = .ok records := by
  intro t t'
  have hg := Grown.exec hs commands
  have hg' := Grown.exec hs' commands'
  have hdepth : start.depth = start'.depth :=
    Nat.pow_right_injective (Nat.le_refl 2) ((depth_create hs).trans (depth_create hs').symm)
  have hsplit (path : List Nat) : t.SplitAt path ↔ t'.SplitAt path := by
    rw [hg.splitAt_iff hsettled, hg'.splitAt_iff hsettled', hdepth]
    simp only [hpoints]
  have hleaf (path : List Nat) : t.LeafAt path ↔ t'.LeafAt path := by
    rw [hg.leafAt_iff_kept hsettled, hg'.leafAt_iff_kept hsettled', hdepth]
    simp only [hpoints]
  have hsame : t.depth = t'.depth := by rw [hg.depth_eq, hg'.depth_eq, hdepth]
  have hcell := hg.arena.cell_congr hg'.arena hsame hsplit hleaf
  obtain ⟨hnodes, hleaves⟩ := hg.arena.counts_congr hg'.arena hsplit hleaf
  refine ⟨hnodes, hleaves, hcell, ?_⟩
  intro resolve anchor
  refine ⟨_, flatten_eq hg.arena resolve anchor, ?_⟩
  rw [flatten_eq hg'.arena, hcell, hsame]

theorem exec_schedule_retry : ∃ start : Octree, create (4 : UInt32).toNat (16 : UInt32).toNat = .ok start ∧
    let t := start.exec [.limit 17, .insertAll [⟨0, 0, 0⟩, ⟨3, 1, 3⟩, ⟨3, 3, 3⟩, ⟨0, 3, 0⟩], .limit 100,
      .insertAll [⟨3, 3, 3⟩, ⟨0, 0, 0⟩]]
    let t' := start.exec [.insert ⟨3, 3, 3⟩, .insertAll [⟨0, 0, 0⟩, ⟨3, 1, 3⟩, ⟨0, 0, 0⟩]]
    t.nodes ≠ t'.nodes ∧ t.nodeCount = 25 ∧ ∀ (resolve : Resolver) (anchor : Vec3 Single), ∃ records : Array Record,
      t.flatten resolve anchor = .ok records ∧ t'.flatten resolve anchor = .ok records := by
  have hs : create (4 : UInt32).toNat (16 : UInt32).toNat = .ok ⟨2, maxNodes, #[⟨2, .empty⟩]⟩ := rfl
  have hpoints : (attempts ⟨2, maxNodes, #[⟨2, .empty⟩]⟩ [.limit 17,
      .insertAll [⟨0, 0, 0⟩, ⟨3, 1, 3⟩, ⟨3, 3, 3⟩, ⟨0, 3, 0⟩], .limit 100,
      .insertAll [⟨3, 3, 3⟩, ⟨0, 0, 0⟩]]).map Attempt.point =
        [⟨0, 0, 0⟩, ⟨3, 1, 3⟩, ⟨3, 3, 3⟩, ⟨3, 3, 3⟩, ⟨0, 0, 0⟩] := by decide
  have hpoints' : (attempts ⟨2, maxNodes, #[⟨2, .empty⟩]⟩
      [.insert ⟨3, 3, 3⟩, .insertAll [⟨0, 0, 0⟩, ⟨3, 1, 3⟩, ⟨0, 0, 0⟩]]).map Attempt.point =
        [⟨3, 3, 3⟩, ⟨0, 0, 0⟩, ⟨3, 1, 3⟩, ⟨0, 0, 0⟩] := by decide
  obtain ⟨-, -, -, hrecords⟩ := exec_schedule hs hs
    [.limit 17, .insertAll [⟨0, 0, 0⟩, ⟨3, 1, 3⟩, ⟨3, 3, 3⟩, ⟨0, 3, 0⟩], .limit 100, .insertAll [⟨3, 3, 3⟩, ⟨0, 0, 0⟩]]
    [.insert ⟨3, 3, 3⟩, .insertAll [⟨0, 0, 0⟩, ⟨3, 1, 3⟩, ⟨0, 0, 0⟩]]
    (by intro p; rw [hpoints, hpoints']; simp only [List.mem_cons, List.not_mem_nil]; tauto) (by decide) (by decide)
  exact ⟨_, hs, by decide, by decide, hrecords⟩

end Octree

end VoxelOctree
