import Mathlib.Data.List.Basic
import Mathlib.Data.List.Induction
import VoxelOctree.Proofs.Octree.Reachable

namespace VoxelOctree

namespace Octree

theorem follow_append (t : Octree) (id : Nat) (front back : List Nat) :
    t.follow id (front ++ back) = (t.follow id front).bind fun mid => t.follow mid back := by
  induction front generalizing id with
  | nil => rfl
  | cons slot rest ih =>
    simp only [List.cons_append, follow]
    split
    · split_ifs
      · exact ih _
      · rfl
    · rfl

theorem follow_cons_iff {t : Octree} {id slot target : Nat} {rest : List Nat} :
    t.follow id (slot :: rest) = some target ↔
      ∃ level first, t.nodes[id]? = some ⟨level, .internal first⟩ ∧ slot < 8 ∧
        t.follow (first + slot) rest = some target := by
  constructor
  · intro h
    rw [follow] at h
    split at h
    · next first hk =>
      obtain ⟨level, hn⟩ := kind?_eq_some_iff.mp hk
      split_ifs at h with hs
      exact ⟨level, first, hn, hs, h⟩
    · cases h
  · rintro ⟨level, first, hn, hs, h⟩
    rw [follow, kind?_of_node hn]
    simpa only [hs, ↓reduceIte] using h

theorem follow_terminal_iff {t : Octree} {id level x : Nat} {kind : Kind}
    (hn : t.nodes[id]? = some ⟨level, kind⟩) (hk : ∀ first, kind ≠ .internal first) :
    x = id ↔ ∃ path, t.follow id path = some x := by
  constructor
  · rintro rfl
    exact ⟨[], rfl⟩
  · rintro ⟨_ | ⟨slot, rest⟩, hp⟩
    · exact (Option.some.inj hp).symm
    · obtain ⟨level', first, hn', -⟩ := follow_cons_iff.mp hp
      obtain ⟨-, rfl⟩ : level = level' ∧ kind = .internal first := by simpa [hn] using hn'
      exact absurd rfl (hk first)

theorem follow_snoc_iff {t : Octree} {id slot target : Nat} {path : List Nat} :
    t.follow id (path ++ [slot]) = some target ↔
      ∃ mid level first, t.follow id path = some mid ∧ t.nodes[mid]? = some ⟨level, .internal first⟩ ∧
        slot < 8 ∧ first + slot = target := by
  rw [follow_append, Option.bind_eq_some_iff]
  constructor
  · rintro ⟨mid, hm, h⟩
    obtain ⟨level, first, hn, hs, ht⟩ := follow_cons_iff.mp h
    exact ⟨mid, level, first, hm, hn, hs, Option.some.inj ht⟩
  · rintro ⟨mid, level, first, hm, hn, hs, rfl⟩
    exact ⟨mid, hm, follow_cons_iff.mpr ⟨level, first, hn, hs, rfl⟩⟩

namespace Arena

variable {t : Octree}

theorem follow_level (h : Arena t) {path : List Nat} {a b level : Nat} {kind : Kind}
    (ha : t.nodes[a]? = some ⟨level, kind⟩) (hp : t.follow a path = some b) :
    ∃ below kind', t.nodes[b]? = some ⟨below, kind'⟩ ∧ level = below + path.length := by
  induction path generalizing a level kind with
  | nil =>
    cases hp
    exact ⟨level, kind, ha, rfl⟩
  | cons slot rest ih =>
    obtain ⟨level', first, hn, hs, hr⟩ := follow_cons_iff.mp hp
    obtain ⟨rfl, rfl⟩ : level = level' ∧ kind = .internal first := by simpa [ha] using hn
    have hpos := (h.block ha).1
    obtain ⟨up, rfl⟩ : ∃ up, level = up + 1 := ⟨level - 1, by omega⟩
    obtain ⟨kind', hc⟩ := h.child ha ⟨slot, hs⟩
    obtain ⟨below, kind'', hb, hl⟩ := ih hc hr
    exact ⟨below, kind'', hb, by rw [List.length_cons]; omega⟩

theorem follow_unique (h : Arena t) {path path' : List Nat} {a b c : Nat} (hp : t.follow a path = some c)
    (hq : t.follow b path' = some c) (hl : path.length = path'.length) : a = b ∧ path = path' := by
  induction path using List.reverseRecOn generalizing path' c with
  | nil =>
    obtain rfl : path' = [] := List.length_eq_zero_iff.mp hl.symm
    cases hp
    cases hq
    exact ⟨rfl, rfl⟩
  | append_singleton front slot ih =>
    rcases List.eq_nil_or_concat' path' with rfl | ⟨front', slot', rfl⟩
    · simp at hl
    · obtain ⟨mid, level, first, hm, hn, hs, hc⟩ := follow_snoc_iff.mp hp
      obtain ⟨mid', level', first', hm', hn', hs', hc'⟩ := follow_snoc_iff.mp hq
      obtain ⟨rfl, hk⟩ := h.slot_unique (j := ⟨slot, hs⟩) (k := ⟨slot', hs'⟩) hn hn' (hc.trans hc'.symm)
      obtain rfl : slot = slot' := congrArg Fin.val hk
      obtain ⟨rfl, rfl⟩ := ih hm hm' (by simpa using hl)
      exact ⟨rfl, rfl⟩

theorem exists_path (h : Arena t) (id : Nat) (hi : id < t.nodes.size) : ∃ path, t.follow 0 path = some id := by
  induction id using Nat.strongRecOn with
  | ind id ih =>
    by_cases hz : id = 0
    · exact ⟨[], by rw [hz]; rfl⟩
    · obtain ⟨a, level, first, k, ha, hf⟩ := h.parent (by omega) hi
      have hlt := (h.block ha).2.1
      obtain ⟨path, hp⟩ := ih a (by omega) (lt_of_node ha)
      exact ⟨path ++ [k.val], follow_snoc_iff.mpr ⟨a, level, first, hp, ha, k.isLt, hf⟩⟩

theorem path_length (h : Arena t) {path : List Nat} {id : Nat} {n : Node} (hn : t.nodes[id]? = some n)
    (hp : t.follow 0 path = some id) : t.depth = n.level + path.length := by
  obtain ⟨kind, hr⟩ := h.root
  obtain ⟨below, kind', hb, hl⟩ := h.follow_level hr hp
  obtain rfl : n = ⟨below, kind'⟩ := Option.some.inj (hn.symm.trans hb)
  exact hl

theorem path_unique (h : Arena t) {path path' : List Nat} {id : Nat} (hp : t.follow 0 path = some id)
    (hq : t.follow 0 path' = some id) : path = path' := by
  obtain ⟨kind, hr⟩ := h.root
  obtain ⟨below, kind', hb, hl⟩ := h.follow_level hr hp
  have hl' := h.path_length hb hq
  exact (h.follow_unique hp hq (by dsimp only at hl'; omega)).2

end Arena

theorem children_internal (first : Nat) :
    (Kind.internal first).children? = some (List.range' first 8) := rfl

theorem exists_of_children {kind : Kind} {children : List Nat} (h : kind.children? = some children) :
    ∃ first, kind = .internal first ∧ children = List.range' first 8 := by
  cases kind with
  | empty => cases h
  | leaf => cases h
  | internal first => exact ⟨first, rfl, (Option.some.inj h).symm⟩

namespace Arena

variable {t : Octree}

theorem children (h : Arena t) {a : Nat} {n : Node} {children : List Nat} (hn : t.nodes[a]? = some n)
    (hc : n.kind.children? = some children) :
    2 ≤ n.size ∧ ∃ c, children = List.range' c 8 ∧ a < c ∧ c % 8 = 1 ∧ c + 7 < t.nodeCount ∧
      ∀ id ∈ children, ∃ child, t.nodes[id]? = some child ∧ child.size = n.size / 2 := by
  obtain ⟨level, kind⟩ := n
  obtain ⟨first, rfl, rfl⟩ := exists_of_children hc
  obtain ⟨hpos, hlt, hmod, hsize⟩ := h.block hn
  obtain ⟨below, rfl⟩ : ∃ below, level = below + 1 := ⟨level - 1, by omega⟩
  have htwo : Node.size ⟨below + 1, .internal first⟩ = 2 ^ below * 2 := Nat.pow_succ ..
  refine ⟨?_, first, rfl, hlt, hmod, hsize, ?_⟩
  · have := Nat.two_pow_pos below
    omega
  · intro id hid
    obtain ⟨i, hi, rfl⟩ := List.mem_range'.mp hid
    obtain ⟨kind, hchild⟩ := h.child hn ⟨i, hi⟩
    refine ⟨⟨below, kind⟩, by simpa using hchild, ?_⟩
    rw [htwo, Nat.mul_div_cancel _ (by decide), Node.size]

theorem existsUnique_slot (h : Arena t) {id : Nat} (hz : id ≠ 0) (hid : id < t.nodeCount) :
    ∃! parent : Nat × Octant, ∃ kind children, t.kind? parent.1 = some kind ∧
      kind.children? = some children ∧ children[parent.2.val]? = some id := by
  obtain ⟨a, level, first, k, hn, hf⟩ := h.parent (Nat.pos_of_ne_zero hz) hid
  refine ⟨(a, k), ⟨.internal first, _, kind?_of_node hn, children_internal first, ?_⟩, ?_⟩
  · rw [List.getElem?_range' k.isLt]
    simpa using hf
  · rintro ⟨b, j⟩ ⟨kind, children, hk, hc, hj⟩
    obtain ⟨level', hn'⟩ := kind?_eq_some_iff.mp hk
    obtain ⟨first', rfl, rfl⟩ := exists_of_children hc
    have he : first' + j.val = first + k.val := by
      rw [List.getElem?_range' j.isLt] at hj
      simpa [hf] using hj
    obtain ⟨hb, hj⟩ := h.slot_unique hn' hn he
    exact Prod.ext hb hj

theorem exists_path_log2 (h : Arena t) {id : Nat} {n : Node} (hn : t.nodes[id]? = some n) :
    ∃ path, t.follow 0 path = some id ∧ path.length = (t.rootSize / n.size).log2 ∧
      ∀ path', t.follow 0 path' = some id → path' = path := by
  obtain ⟨path, hp⟩ := h.exists_path id (lt_of_node hn)
  refine ⟨path, hp, ?_, fun path' hp' => h.path_unique hp' hp⟩
  rw [rootSize, h.path_length hn hp, Node.size, Nat.pow_add, Nat.mul_div_cancel_left _ (Nat.two_pow_pos _),
    Nat.log2_two_pow]

theorem toNat_ofNat (h : Arena t) {n : Nat} (hn : n ≤ t.nodeCount) : (UInt32.ofNat n).toNat = n := by
  apply UInt32.toNat_ofNat_of_lt'
  exact (hn.trans h.size_le).trans_lt (by decide)

end Arena

/-- An arena of a given root size: its sizes, its blocks of children, one parent and one path for each node. -/
structure WellFormed (rootSize : Nat) (t : Octree) : Prop where
  rootSize_eq : t.rootSize = rootSize
  eq_two_pow : rootSize = 2 ^ t.depth
  root : ∃ root, t.nodes[0]? = some root ∧ root.size = rootSize
  nodeCount_eq : t.nodeCount = 1 + 8 * t.internalCount
  nodeCount_le : t.nodeCount ≤ maxNodes
  children : ∀ (a : Nat) (n : Node) (children : List Nat), t.nodes[a]? = some n → n.kind.children? = some children →
    2 ≤ n.size ∧ ∃ c, children = List.range' c 8 ∧ a < c ∧ c % 8 = 1 ∧ c + 7 < t.nodeCount ∧
      ∀ id ∈ children, ∃ child, t.nodes[id]? = some child ∧ child.size = n.size / 2
  parent : ∀ id, id ≠ 0 → id < t.nodeCount → ∃! parent : Nat × Octant, ∃ kind children,
    t.kind? parent.1 = some kind ∧ kind.children? = some children ∧ children[parent.2.val]? = some id
  leaf : ∀ (a : Nat) (n : Node), t.nodes[a]? = some n → n.kind = .leaf → n.size = 1
  path : ∀ (id : Nat) (n : Node), t.nodes[id]? = some n → ∃ path, t.follow 0 path = some id ∧
    path.length = (t.rootSize / n.size).log2 ∧ ∀ path', t.follow 0 path' = some id → path' = path
  number : ∀ id < t.nodeCount, (UInt32.ofNat id).toNat = id

/-- Any calls on a new octree leave its arena well formed. -/
theorem exec_arena {rootSize maxDepth : UInt32} {start : Octree}
    (hs : create rootSize.toNat maxDepth.toNat = .ok start) (commands : List Command) :
    WellFormed rootSize.toNat (start.exec commands) := by
  have hsteps := exec_steps commands (Arena.create hs)
  have ha : Arena (start.exec commands) := (Arena.create hs).steps hsteps
  have hroot : (start.exec commands).rootSize = rootSize.toNat := by
    rw [Octree.rootSize, hsteps.depth_eq]
    exact depth_create hs
  refine ⟨hroot, hroot.symm, ?_, ha.size_eq, ha.size_le, fun a n children => ha.children,
    fun id => ha.existsUnique_slot, ?_, fun id n => ha.exists_path_log2, ?_⟩
  · obtain ⟨kind, hr⟩ := ha.root
    exact ⟨⟨(start.exec commands).depth, kind⟩, hr, hroot⟩
  · rintro a ⟨level, kind⟩ hn rfl
    rw [ha.leaf hn, Node.size]
    rfl
  · intro id hid
    exact ha.toNat_ofNat hid.le

theorem exec_arena_mixed : ∃ start, create (4 : UInt32).toNat (16 : UInt32).toNat = .ok start ∧
    let t := start.exec [.limit 16, .insert ⟨3, 3, 3⟩, .limit 100, .insertAll [⟨0, 0, 0⟩, ⟨3, 1, 3⟩, ⟨3, 3, 3⟩]]
    t.nodeCount = 25 ∧ t.internalCount = 3 ∧
      ∀ (id : Nat) (n : Node), t.nodes[id]? = some n → ∃ path, t.follow 0 path = some id ∧
        path.length = (t.rootSize / n.size).log2 ∧ ∀ path', t.follow 0 path' = some id → path' = path := by
  have hs : create (4 : UInt32).toNat (16 : UInt32).toNat = .ok ⟨2, maxNodes, #[⟨2, .empty⟩]⟩ := rfl
  have hw := exec_arena hs [.limit 16, .insert ⟨3, 3, 3⟩, .limit 100, .insertAll [⟨0, 0, 0⟩, ⟨3, 1, 3⟩, ⟨3, 3, 3⟩]]
  exact ⟨_, hs, by decide, by decide, hw.path⟩

end Octree

end VoxelOctree
