import Mathlib.Tactic.Ring
import VoxelOctree.Proofs.Octree.Step

namespace VoxelOctree

namespace Octree

-- The two operations are known by what they do to each node; unfolding them in unification is slow.
attribute [local irreducible] setKind subdivide

def internalCount (t : Octree) : Nat :=
  t.nodes.countP fun n => !n.kind.isLeaf && !n.kind.isEmpty

def emptyCount (t : Octree) : Nat :=
  t.nodes.countP fun n => n.kind.isEmpty

theorem count_kinds (t : Octree) : t.internalCount + t.leafCount + t.emptyCount = t.nodeCount := by
  unfold internalCount leafCount emptyCount nodeCount
  rw [← Array.countP_toList, ← Array.countP_toList, ← Array.countP_toList, ← Array.length_toList]
  induction t.nodes.toList with
  | nil => rfl
  | cons n rest ih =>
    simp only [List.countP_cons, List.length_cons, ← ih]
    rcases n with ⟨level, _ | _ | first⟩ <;> simp [Kind.isLeaf, Kind.isEmpty] <;> omega

structure Arena (t : Octree) : Prop where
  limit_le : t.limit ≤ maxNodes
  size_le : t.nodes.size ≤ maxNodes
  size_mod : t.nodes.size % 8 = 1
  size_eq : t.nodes.size = 1 + 8 * t.internalCount
  root : ∃ kind, t.nodes[0]? = some ⟨t.depth, kind⟩
  leaf : ∀ {id level : Nat}, t.nodes[id]? = some ⟨level, .leaf⟩ → level = 0
  block : ∀ {id level first : Nat}, t.nodes[id]? = some ⟨level, .internal first⟩ →
    0 < level ∧ id < first ∧ first % 8 = 1 ∧ first + 8 ≤ t.nodes.size
  child : ∀ {id level first : Nat}, t.nodes[id]? = some ⟨level + 1, .internal first⟩ →
    ∀ k : Octant, ∃ kind, t.nodes[first + k.val]? = some ⟨level, kind⟩
  parent : ∀ {id : Nat}, 0 < id → id < t.nodes.size →
    ∃ a level first : Nat, ∃ k : Octant, t.nodes[a]? = some ⟨level, .internal first⟩ ∧ first + k.val = id
  unique : ∀ {a b l m first : Nat}, t.nodes[a]? = some ⟨l, .internal first⟩ →
    t.nodes[b]? = some ⟨m, .internal first⟩ → a = b

section Changes

variable {t : Octree} {id level : Nat} {kind : Kind}

theorem countP_modify {f : Node → Node} {n : Node} (h : t.nodes[id]? = some n) (q : Node → Bool) :
    (t.nodes.modify id f).countP q + (q n).toNat = t.nodes.countP q + (q (f n)).toNat := by
  obtain ⟨hi, hn⟩ := Array.getElem?_eq_some_iff.mp h
  obtain ⟨front, m, back, hl, hlen, hm⟩ := List.exists_of_modify f (l := t.nodes.toList) (i := id) (by simpa using hi)
  have he : m = n := by
    have : t.nodes.toList[id]? = some m := by rw [hl, ← hlen]; simp
    rw [Array.getElem?_toList, h] at this
    exact (Option.some.inj this).symm
  subst he
  rw [← Array.countP_toList, ← Array.countP_toList, Array.toList_modify, hm, hl]
  simp only [List.countP_append, List.countP_cons]
  cases q m <;> cases q (f m) <;> simp <;> omega

theorem internalCount_subdivide (hn : t.nodes[id]? = some ⟨level + 1, .empty⟩) :
    (t.subdivide id level).internalCount = t.internalCount + 1 := by
  have h := countP_modify (f := fun n => { n with kind := .internal t.nodes.size }) hn
    fun n => !n.kind.isLeaf && !n.kind.isEmpty
  unfold internalCount subdivide
  rw [Array.countP_append, Array.countP_replicate]
  simpa [Kind.isLeaf, Kind.isEmpty] using h

theorem internalCount_setKind (hn : t.nodes[id]? = some ⟨level, kind⟩) (hk : ∀ first, kind ≠ .internal first) :
    (t.setKind id .leaf).internalCount = t.internalCount := by
  have h := countP_modify (f := fun n => { n with kind := .leaf }) hn
    fun n => !n.kind.isLeaf && !n.kind.isEmpty
  unfold internalCount setKind
  cases kind with
  | empty => simpa [Kind.isLeaf, Kind.isEmpty] using h
  | leaf => simpa [Kind.isLeaf, Kind.isEmpty] using h
  | internal first => exact absurd rfl (hk first)

theorem internal_subdivide_iff (hn : t.nodes[id]? = some ⟨level + 1, .empty⟩) {i l first : Nat} :
    (t.subdivide id level).nodes[i]? = some ⟨l, .internal first⟩ ↔
      (i = id ∧ l = level + 1 ∧ first = t.nodes.size) ∨ t.nodes[i]? = some ⟨l, .internal first⟩ := by
  rw [node_subdivide]
  by_cases hi : i < t.nodes.size
  · by_cases he : id = i
    · subst he
      rw [if_pos hi, if_pos rfl, hn]
      simp [eq_comm]
    · simp [hi, he, Ne.symm he]
  · have hne : i ≠ id := fun he => hi (he ▸ lt_of_node hn)
    by_cases hi' : i < t.nodes.size + 8 <;> simp [hi, hi', hne]

theorem node_subdivide_of_lt (t : Octree) (id level : Nat) {i : Nat} {n : Node} (h : t.nodes[i]? = some n) :
    ∃ kind, (t.subdivide id level).nodes[i]? = some ⟨n.level, kind⟩ := by
  rw [node_subdivide, if_pos (lt_of_node h), h]
  by_cases hi : id = i
  · exact ⟨.internal t.nodes.size, by simp [hi]⟩
  · exact ⟨n.kind, by simp [hi]⟩

theorem node_subdivide_new (t : Octree) (id level : Nat) (k : Octant) :
    (t.subdivide id level).nodes[t.nodes.size + k.val]? = some ⟨level, .empty⟩ := by
  rw [node_subdivide, if_neg (Nat.not_lt.mpr (Nat.le_add_right _ _)), if_pos (Nat.add_lt_add_left k.isLt _)]

theorem leaf_subdivide_iff {i l : Nat} :
    (t.subdivide id level).nodes[i]? = some ⟨l, .leaf⟩ ↔ i ≠ id ∧ t.nodes[i]? = some ⟨l, .leaf⟩ := by
  rw [node_subdivide]
  by_cases hi : i < t.nodes.size
  · by_cases he : id = i
    · simp [hi, he]
    · simp [hi, he, Ne.symm he]
  · by_cases hi' : i < t.nodes.size + 8 <;> simp [hi, hi']

theorem internal_setKind_iff (hn : t.nodes[id]? = some ⟨level, kind⟩) (hk : ∀ first, kind ≠ .internal first)
    {i l first : Nat} : (t.setKind id .leaf).nodes[i]? = some ⟨l, .internal first⟩ ↔
      t.nodes[i]? = some ⟨l, .internal first⟩ := by
  rw [node_setKind]
  by_cases he : id = i
  · subst he
    simp [hn, hk]
  · simp [he]

theorem node_setKind_of_lt (t : Octree) (id : Nat) (kind : Kind) {i : Nat} {n : Node} (h : t.nodes[i]? = some n) :
    ∃ kind', (t.setKind id kind).nodes[i]? = some ⟨n.level, kind'⟩ := by
  rw [node_setKind, h]
  by_cases hi : id = i
  · exact ⟨kind, by simp [hi]⟩
  · exact ⟨n.kind, by simp [hi]⟩

theorem leaf_setKind_iff (hn : t.nodes[id]? = some ⟨level, kind⟩) {i l : Nat} :
    (t.setKind id .leaf).nodes[i]? = some ⟨l, .leaf⟩ ↔ (i = id ∧ l = level) ∨ t.nodes[i]? = some ⟨l, .leaf⟩ := by
  rw [node_setKind]
  by_cases he : id = i
  · subst he
    have hl : level = l ∧ kind = .leaf → level = l := And.left
    simpa [hn, eq_comm (a := l)] using hl
  · simp [he, Ne.symm he]

end Changes

namespace Arena

variable {t : Octree}

theorem size_le_word (h : Arena t) : t.nodes.size ≤ UInt32.size :=
  h.size_le.trans (by decide)

theorem kind_of_unit (h : Arena t) {id : Nat} {kind : Kind} (hn : t.nodes[id]? = some ⟨0, kind⟩) (first : Nat) :
    kind ≠ .internal first := by
  rintro rfl
  have := (h.block hn).1
  omega

theorem slot_unique (h : Arena t) {a b l m first first' : Nat} {j k : Octant}
    (ha : t.nodes[a]? = some ⟨l, .internal first⟩) (hb : t.nodes[b]? = some ⟨m, .internal first'⟩)
    (he : first + j.val = first' + k.val) : a = b ∧ j = k := by
  have hf := (h.block ha).2.2.1
  have hf' := (h.block hb).2.2.1
  have hfirst : first = first' := by omega
  subst hfirst
  exact ⟨h.unique ha hb, Fin.ext (by omega)⟩

theorem withLimit (h : Arena t) (n : Nat) : Arena (t.withLimit n) where
  limit_le := Nat.min_le_right _ _
  size_le := h.size_le
  size_mod := h.size_mod
  size_eq := h.size_eq
  root := h.root
  leaf := h.leaf
  block := h.block
  child := h.child
  parent := h.parent
  unique := h.unique

theorem mark (h : Arena t) {id : Nat} {kind : Kind} (hn : t.nodes[id]? = some ⟨0, kind⟩) :
    Arena (t.setKind id .leaf) := by
  have hk := h.kind_of_unit hn
  constructor
  · rw [limit_setKind]
    exact h.limit_le
  · simpa using h.size_le
  · simpa using h.size_mod
  · rw [size_setKind, internalCount_setKind hn hk]
    exact h.size_eq
  · obtain ⟨kind', hr⟩ := h.root
    rw [depth_setKind]
    exact node_setKind_of_lt t id .leaf hr
  · intro i l hi
    rcases (leaf_setKind_iff hn).mp hi with ⟨-, rfl⟩ | hi
    · rfl
    · exact h.leaf hi
  · intro i l first hi
    rw [size_setKind]
    exact h.block ((internal_setKind_iff hn hk).mp hi)
  · intro i l first hi k
    obtain ⟨kind', hc⟩ := h.child ((internal_setKind_iff hn hk).mp hi) k
    exact node_setKind_of_lt t id .leaf hc
  · intro i hi hs
    obtain ⟨a, l, first, k, ha, hf⟩ := h.parent hi (by simpa using hs)
    exact ⟨a, l, first, k, (internal_setKind_iff hn hk).mpr ha, hf⟩
  · intro a b l m first ha hb
    exact h.unique ((internal_setKind_iff hn hk).mp ha) ((internal_setKind_iff hn hk).mp hb)

theorem split (h : Arena t) {id level : Nat} (hn : t.nodes[id]? = some ⟨level + 1, .empty⟩)
    (hl : t.nodes.size + 8 ≤ t.limit) : Arena (t.subdivide id level) := by
  have hid := lt_of_node hn
  constructor
  · rw [limit_subdivide]
    exact h.limit_le
  · rw [size_subdivide]
    exact hl.trans h.limit_le
  · rw [size_subdivide, Nat.add_mod_right]
    exact h.size_mod
  · rw [size_subdivide, internalCount_subdivide hn, h.size_eq]
    ring
  · obtain ⟨kind, hr⟩ := h.root
    rw [depth_subdivide]
    exact node_subdivide_of_lt t id level hr
  · intro i l hi
    exact h.leaf (leaf_subdivide_iff.mp hi).2
  · intro i l first hi
    rw [size_subdivide]
    rcases (internal_subdivide_iff hn).mp hi with ⟨rfl, rfl, rfl⟩ | hi
    · exact ⟨Nat.succ_pos level, hid, h.size_mod, Nat.le_refl _⟩
    · obtain ⟨hpos, hlt, hmod, hsize⟩ := h.block hi
      exact ⟨hpos, hlt, hmod, by omega⟩
  · intro i l first hi k
    rcases (internal_subdivide_iff hn).mp hi with ⟨rfl, hlevel, rfl⟩ | hi
    · obtain rfl : l = level := by omega
      exact ⟨.empty, node_subdivide_new t i l k⟩
    · obtain ⟨kind, hc⟩ := h.child hi k
      exact node_subdivide_of_lt t id level hc
  · intro i hi hs
    rw [size_subdivide] at hs
    by_cases hold : i < t.nodes.size
    · obtain ⟨a, l, first, k, ha, hf⟩ := h.parent hi hold
      exact ⟨a, l, first, k, (internal_subdivide_iff hn).mpr (.inr ha), hf⟩
    · have hk : i - t.nodes.size < 8 := by omega
      refine ⟨id, level + 1, t.nodes.size, ⟨i - t.nodes.size, hk⟩, ?_, Nat.add_sub_cancel' (by omega)⟩
      exact (internal_subdivide_iff hn).mpr (.inl ⟨rfl, rfl, rfl⟩)
  · intro a b l m first ha hb
    -- the new block starts at the old length, where no old block starts
    rcases (internal_subdivide_iff hn).mp ha with ⟨rfl, -, rfl⟩ | ha'
    · rcases (internal_subdivide_iff hn).mp hb with ⟨rfl, -, -⟩ | hb'
      · rfl
      · have := (h.block hb').2.2.2
        omega
    · rcases (internal_subdivide_iff hn).mp hb with ⟨rfl, -, rfl⟩ | hb'
      · have := (h.block ha').2.2.2
        omega
      · exact h.unique ha' hb'

theorem step {t' : Octree} (h : Arena t) (hs : Step t t') : Arena t' := by
  cases hs with
  | limit n => exact h.withLimit n
  | mark id kind hn => exact h.mark hn
  | split id level hn hl => exact h.split hn hl

theorem steps {t' : Octree} (h : Arena t) (hs : Steps t t') : Arena t' := by
  induction hs with
  | refl => exact h
  | tail _ hs ih => exact ih.step hs

theorem create {rootSize maxDepth : Nat} (h : Octree.create rootSize maxDepth = .ok t) : Arena t := by
  have hempty {id level : Nat} {kind : Kind} (hn : t.nodes[id]? = some ⟨level, kind⟩) : kind = .empty :=
    congrArg Node.kind (node_create h hn)
  obtain ⟨depth, -, -, rfl⟩ := create_eq_ok_iff.mp h
  constructor
  · exact Nat.le_refl _
  · show 1 ≤ maxNodes
    decide
  · rfl
  · rfl
  · exact ⟨.empty, rfl⟩
  · intro id level hn
    cases hempty hn
  · intro id level first hn
    cases hempty hn
  · intro id level first hn
    cases hempty hn
  · intro id hpos hid
    have hz : id < 1 := hid
    omega
  · intro a b l m first ha
    cases hempty ha

end Arena

end Octree

end VoxelOctree
