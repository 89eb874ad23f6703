import Mathlib.Logic.Relation
import Mathlib.Tactic.SplitIfs
import VoxelOctree.Octree.Insert

namespace VoxelOctree

namespace Octree

theorem kind?_eq_some_iff {t : Octree} {id : Nat} {kind : Kind} :
    t.kind? id = some kind ↔ ∃ level, t.nodes[id]? = some ⟨level, kind⟩ := by
  unfold kind?
  constructor
  · intro h
    obtain ⟨n, hn, rfl⟩ := Option.map_eq_some_iff.mp h
    exact ⟨n.level, hn⟩
  · rintro ⟨level, h⟩
    rw [h]
    rfl

theorem kind?_of_node {t : Octree} {id : Nat} {n : Node} (h : t.nodes[id]? = some n) :
    t.kind? id = some n.kind := by
  rw [kind?, h]
  rfl

theorem lt_of_node {t : Octree} {id : Nat} {n : Node} (h : t.nodes[id]? = some n) :
    id < t.nodes.size := by
  obtain ⟨hi, -⟩ := Array.getElem?_eq_some_iff.mp h
  exact hi

theorem create_eq_ok_iff {rootSize maxDepth : Nat} {t : Octree} : create rootSize maxDepth = .ok t ↔
    ∃ depth ≤ maxDepth, rootSize = 2 ^ depth ∧ t = ⟨depth, maxNodes, #[⟨depth, .empty⟩]⟩ := by
  constructor
  · intro h
    simp only [create] at h
    split_ifs at h with hp hd
    cases h
    exact ⟨_, Nat.le_of_not_lt hd, Decidable.not_not.mp hp, rfl⟩
  · rintro ⟨depth, hd, rfl, rfl⟩
    have hlt : ¬ maxDepth < depth := Nat.not_lt_of_le hd
    simp [create, Nat.log2_two_pow, hlt]

theorem depth_create {rootSize maxDepth : Nat} {t : Octree} (h : create rootSize maxDepth = .ok t) :
    2 ^ t.depth = rootSize := by
  obtain ⟨depth, -, rfl, rfl⟩ := create_eq_ok_iff.mp h
  rfl

theorem depth_lt_of_create {rootSize maxDepth : Nat} {t : Octree} (h : create rootSize maxDepth = .ok t)
    (hr : rootSize < UInt32.size) : t.depth < 32 := by
  rw [← depth_create h] at hr
  have hlt : 2 ^ t.depth < 2 ^ (32 : Nat) := hr
  exact (Nat.pow_lt_pow_iff_right (by decide)).mp hlt

theorem node_create {rootSize maxDepth : Nat} {t : Octree} (h : create rootSize maxDepth = .ok t) {id : Nat} {n : Node}
    (hn : t.nodes[id]? = some n) : n = ⟨t.depth, .empty⟩ := by
  obtain ⟨depth, -, -, rfl⟩ := create_eq_ok_iff.mp h
  obtain rfl : id = 0 := by simpa using lt_of_node hn
  exact (Option.some.inj hn).symm

@[simp] theorem nodes_withLimit (t : Octree) (limit : Nat) : (t.withLimit limit).nodes = t.nodes := rfl

@[simp] theorem depth_withLimit (t : Octree) (limit : Nat) : (t.withLimit limit).depth = t.depth := rfl

@[simp] theorem depth_setKind (t : Octree) (id : Nat) (kind : Kind) :
    (t.setKind id kind).depth = t.depth := rfl

@[simp] theorem limit_setKind (t : Octree) (id : Nat) (kind : Kind) :
    (t.setKind id kind).limit = t.limit := rfl

@[simp] theorem depth_subdivide (t : Octree) (id level : Nat) :
    (t.subdivide id level).depth = t.depth := rfl

@[simp] theorem limit_subdivide (t : Octree) (id level : Nat) :
    (t.subdivide id level).limit = t.limit := rfl

@[simp] theorem size_setKind (t : Octree) (id : Nat) (kind : Kind) :
    (t.setKind id kind).nodes.size = t.nodes.size := by
  simp [setKind]

@[simp] theorem size_subdivide (t : Octree) (id level : Nat) :
    (t.subdivide id level).nodes.size = t.nodes.size + 8 := by
  simp [subdivide]

theorem node_setKind (t : Octree) (id : Nat) (kind : Kind) (i : Nat) :
    (t.setKind id kind).nodes[i]? =
      if id = i then t.nodes[i]?.map fun n => { n with kind } else t.nodes[i]? := by
  simp [setKind, Array.getElem?_modify]

theorem node_subdivide (t : Octree) (id level i : Nat) :
    (t.subdivide id level).nodes[i]? =
      if i < t.nodes.size then
        if id = i then t.nodes[i]?.map fun n => { n with kind := .internal t.nodes.size }
        else t.nodes[i]?
      else if i < t.nodes.size + 8 then some ⟨level, .empty⟩ else none := by
  simp only [subdivide, Array.getElem?_append, Array.size_modify, Array.getElem?_modify]
  by_cases hi : i < t.nodes.size
  · simp [hi]
  · simp only [hi, ↓reduceIte, Array.getElem?_replicate]
    congr 1
    apply propext
    omega

inductive Step : Octree → Octree → Prop
  | limit (t : Octree) (n : Nat) : Step t (t.withLimit n)
  | mark (t : Octree) (id : Nat) (kind : Kind) (hn : t.nodes[id]? = some ⟨0, kind⟩) :
      Step t (t.setKind id .leaf)
  | split (t : Octree) (id level : Nat) (hn : t.nodes[id]? = some ⟨level + 1, .empty⟩)
      (hl : t.nodes.size + 8 ≤ t.limit) : Step t (t.subdivide id level)

abbrev Steps : Octree → Octree → Prop :=
  Relation.ReflTransGen Step

theorem Steps.depth_eq {t t' : Octree} (h : Steps t t') : t'.depth = t.depth := by
  induction h with
  | refl => rfl
  | tail _ step ih =>
    rw [← ih]
    cases step <;> simp

end Octree

end VoxelOctree
