import Mathlib.Data.Set.Card
import VoxelOctree.Proofs.Octree.Descent

namespace VoxelOctree

namespace Octree

def numbers (t : Octree) (q : Node → Bool) : Finset Nat :=
  (Finset.range t.nodes.size).filter fun id => t.nodes[id]?.any q = true

def paths (t : Octree) (q : Node → Bool) : Set (List Nat) :=
  {path | ∃ id n, t.follow 0 path = some id ∧ t.nodes[id]? = some n ∧ q n = true}

theorem mem_numbers_iff {t : Octree} {q : Node → Bool} {id : Nat} :
    id ∈ t.numbers q ↔ ∃ n, t.nodes[id]? = some n ∧ q n = true := by
  rw [numbers, Finset.mem_filter, Finset.mem_range]
  constructor
  · rintro ⟨hid, hq⟩
    rw [Array.getElem?_eq_getElem hid] at hq ⊢
    exact ⟨_, rfl, hq⟩
  · rintro ⟨n, hn, hq⟩
    refine ⟨lt_of_node hn, ?_⟩
    rw [hn]
    exact hq

theorem countP_eq_card (t : Octree) (q : Node → Bool) : t.nodes.countP q = (t.numbers q).card := by
  have hmap : t.nodes.toList.map q = (List.range t.nodes.size).map fun id => t.nodes[id]?.any q := by
    apply List.ext_getElem
    · simp
    · intro i hi hi'
      rw [List.length_map, Array.length_toList] at hi
      simp [hi]
  have hcount : t.nodes.countP q = (List.range t.nodes.size).countP fun id => t.nodes[id]?.any q := by
    have hid := congrArg (List.countP id) hmap
    rw [← Array.countP_toList]
    simpa only [List.countP_map, Function.id_comp] using hid
  rw [hcount, List.countP_eq_length_filter, ← List.toFinset_card_of_nodup (List.nodup_range.filter _), numbers]
  congr 1
  ext id
  simp

namespace Arena

variable {t t' : Octree}

theorem follow_injOn (h : Arena t) (q : Node → Bool) : Set.InjOn (t.follow 0) (t.paths q) := by
  rintro path ⟨id, n, hp, -⟩ path' - he
  exact h.path_unique hp (he.symm.trans hp)

theorem follow_image (h : Arena t) (q : Node → Bool) : t.follow 0 '' t.paths q = some '' (t.numbers q : Set Nat) := by
  ext found
  constructor
  · rintro ⟨path, ⟨id, n, hp, hn, hq⟩, rfl⟩
    exact ⟨id, mem_numbers_iff.mpr ⟨n, hn, hq⟩, hp.symm⟩
  · rintro ⟨id, hid, rfl⟩
    obtain ⟨n, hn, hq⟩ := mem_numbers_iff.mp hid
    obtain ⟨path, hp⟩ := h.exists_path id (lt_of_node hn)
    exact ⟨path, ⟨id, n, hp, hn, hq⟩, hp⟩

theorem finite_paths (h : Arena t) (q : Node → Bool) : (t.paths q).Finite := by
  apply Set.Finite.of_finite_image _ (h.follow_injOn q)
  rw [h.follow_image q]
  exact (t.numbers q).finite_toSet.image some

theorem ncard_paths (h : Arena t) (q : Node → Bool) : (t.paths q).ncard = t.nodes.countP q := by
  rw [← (h.follow_injOn q).ncard_image, h.follow_image q, Set.ncard_image_of_injective _ (Option.some_injective Nat),
    Set.ncard_coe_finset, countP_eq_card]

theorem leafAt_eq_paths (h : Arena t) : {path | t.LeafAt path} = t.paths fun n => n.kind.isLeaf := by
  ext path
  constructor
  · rintro ⟨id, hp, hn⟩
    exact ⟨id, _, hp, hn, rfl⟩
  · rintro ⟨id, ⟨level, kind⟩, hp, hn, hq⟩
    obtain rfl : kind = .leaf := of_decide_eq_true hq
    obtain rfl := h.leaf hn
    exact ⟨id, hp, hn⟩

theorem splitAt_eq_paths (t : Octree) :
    {path | t.SplitAt path} = t.paths fun n => !n.kind.isLeaf && !n.kind.isEmpty := by
  ext path
  constructor
  · rintro ⟨id, level, first, hp, hn⟩
    exact ⟨id, _, hp, hn, rfl⟩
  · rintro ⟨id, ⟨level, kind⟩, hp, hn, hq⟩
    cases kind with
    | empty => cases hq
    | leaf => cases hq
    | internal first => exact ⟨id, level, first, hp, hn⟩

theorem ncard_leafAt (h : Arena t) : {path | t.LeafAt path}.ncard = t.leafCount := by
  rw [h.leafAt_eq_paths, h.ncard_paths, leafCount]

theorem ncard_splitAt (h : Arena t) : {path | t.SplitAt path}.ncard = t.internalCount := by
  rw [splitAt_eq_paths, h.ncard_paths, internalCount]

theorem finite_splitAt (h : Arena t) : {path | t.SplitAt path}.Finite := by
  rw [splitAt_eq_paths]
  exact h.finite_paths _

theorem nodeCount_eq (h : Arena t) : t.nodeCount = 1 + 8 * {path | t.SplitAt path}.ncard := by
  rw [h.ncard_splitAt]
  exact h.size_eq

end Arena

end Octree

end VoxelOctree
