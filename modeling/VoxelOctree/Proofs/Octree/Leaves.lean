import VoxelOctree.Proofs.Octree.Path
import VoxelOctree.Proofs.Octree.Route

namespace VoxelOctree

namespace Octree

attribute [local irreducible] setKind subdivide

def LeafAt (t : Octree) (path : List Nat) : Prop :=
  ∃ id, t.follow 0 path = some id ∧ t.nodes[id]? = some ⟨0, .leaf⟩

namespace Arena

variable {t t' : Octree} {id level : Nat} {kind : Kind} {path : List Nat}

theorem internal_step (h : Arena t) (hs : Step t t') {first : Nat} (hn : t.nodes[id]? = some ⟨level, .internal first⟩) :
    t'.nodes[id]? = some ⟨level, .internal first⟩ := by
  cases hs with
  | limit n => exact hn
  | mark id' kind hn' => exact (internal_setKind_iff hn' (h.kind_of_unit hn')).mpr hn
  | split id' level' hn' hl => exact (internal_subdivide_iff hn').mpr (.inr hn)

theorem follow_step (h : Arena t) (hs : Step t t') {a b : Nat} (hp : t.follow a path = some b) :
    t'.follow a path = some b := by
  induction path generalizing a with
  | nil => exact hp
  | cons slot rest ih =>
    obtain ⟨level, first, hn, hslot, hr⟩ := follow_cons_iff.mp hp
    exact follow_cons_iff.mpr ⟨level, first, h.internal_step hs hn, hslot, ih hr⟩

theorem follow_step_iff (h : Arena t) (hs : Step t t') (hid : id < t.nodes.size) :
    t'.follow 0 path = some id ↔ t.follow 0 path = some id := by
  constructor
  · intro hp
    obtain ⟨old, hold⟩ := h.exists_path id hid
    rw [(h.step hs).path_unique hp (h.follow_step hs hold)]
    exact hold
  · exact h.follow_step hs

theorem leafAt_mark (h : Arena t) (hn : t.nodes[id]? = some ⟨0, kind⟩) (hp : t.follow 0 path = some id)
    (target : List Nat) : (t.setKind id .leaf).LeafAt target ↔ t.LeafAt target ∨ target = path := by
  have hs : Step t (t.setKind id .leaf) := .mark t id kind hn
  constructor
  · rintro ⟨x, hx, hleaf⟩
    rcases (leaf_setKind_iff hn).mp hleaf with ⟨rfl, -⟩ | hold
    · exact .inr (h.path_unique ((h.follow_step_iff hs (lt_of_node hn)).mp hx) hp)
    · exact .inl ⟨x, (h.follow_step_iff hs (lt_of_node hold)).mp hx, hold⟩
  · rintro (⟨x, hx, hleaf⟩ | rfl)
    · exact ⟨x, h.follow_step hs hx, (leaf_setKind_iff hn).mpr (.inr hleaf)⟩
    · exact ⟨id, h.follow_step hs hp, (leaf_setKind_iff hn).mpr (.inl ⟨rfl, rfl⟩)⟩

theorem leafAt_split (h : Arena t) (hn : t.nodes[id]? = some ⟨level + 1, .empty⟩) (hl : t.nodes.size + 8 ≤ t.limit)
    (target : List Nat) : (t.subdivide id level).LeafAt target ↔ t.LeafAt target := by
  have hs : Step t (t.subdivide id level) := .split t id level hn hl
  constructor
  · rintro ⟨x, hx, hleaf⟩
    have hold := (leaf_subdivide_iff.mp hleaf).2
    exact ⟨x, (h.follow_step_iff hs (lt_of_node hold)).mp hx, hold⟩
  · rintro ⟨x, hx, hleaf⟩
    refine ⟨x, h.follow_step hs hx, leaf_subdivide_iff.mpr ⟨?_, hleaf⟩⟩
    rintro rfl
    rw [hn] at hleaf
    cases hleaf

theorem leafAt_descend (p : Point) (h : Arena t) (hn : t.nodes[id]? = some ⟨level, kind⟩)
    (hp : t.follow 0 path = some id) (target : List Nat) :
    (t.descend p id level).1.LeafAt target ↔
      t.LeafAt target ∨ (t.descend p id level).2 = .ok () ∧ target = path ++ p.route level := by
  induction level generalizing t id kind path with
  | zero => simpa [descend, Point.route] using h.leafAt_mark hn hp target
  | succ level ih =>
    unfold descend Point.route
    cases Octant.ofPoint p (2 ^ level) with
    | none => simp
    | some k =>
      dsimp only
      rw [kind?_of_node hn, List.append_cons]
      cases kind with
      | internal first =>
        obtain ⟨kind, hc⟩ := h.child hn k
        exact ih h hc (follow_snoc_iff.mpr ⟨id, level + 1, first, hp, hn, k.isLt, rfl⟩)
      | leaf => exact absurd (h.leaf hn) (Nat.succ_ne_zero level)
      | empty =>
        by_cases hl : t.nodes.size + 8 ≤ t.limit
        · simp only [hl, ↓reduceIte]
          have hs : Step t (t.subdivide id level) := .split t id level hn hl
          have hsplit := (internal_subdivide_iff hn).mpr (.inl ⟨rfl, rfl, rfl⟩)
          rw [← h.leafAt_split hn hl]
          exact ih (h.step hs) (node_subdivide_new t id level k)
            (follow_snoc_iff.mpr ⟨id, level + 1, t.nodes.size, h.follow_step hs hp, hsplit, k.isLt, rfl⟩)
        · simp only [hl, ↓reduceIte]
          simp

end Arena

theorem kept_of_descend (p : Point) (t : Octree) (id level : Nat) :
    ((t.descend p id level).2 = .ok () → p.Kept level) ∧
      ∀ drop, (t.descend p id level).2 = .error (.dropped drop) → ¬ p.Kept level := by
  induction level generalizing t id with
  | zero => simp [descend, Point.Kept, OnPlane]
  | succ level ih =>
    unfold descend
    rw [Point.kept_succ_iff]
    cases Octant.ofPoint p (2 ^ level) with
    | none => simp
    | some k =>
      simp only [Option.some.injEq, exists_eq', true_and]
      split
      · exact ih _ _
      · split_ifs
        · exact ih _ _
        · simp

theorem Arena.leafAt_run {t : Octree} (h : Arena t) (points : List Point) (report : InsertReport)
    (hf : (Batch.run t report points).full = none) (target : List Nat) :
    (Batch.run t report points).tree.LeafAt target ↔
      t.LeafAt target ∨ ∃ q ∈ points, q.Kept t.depth ∧ target = q.route t.depth := by
  induction points generalizing t report with
  | nil => simp [Batch.run]
  | cons p rest ih =>
    have hs := insert_steps p h
    obtain ⟨kind, hr⟩ := h.root
    have hpath : t.follow 0 [] = some 0 := rfl
    have hleaf := h.leafAt_descend p hr hpath target
    obtain ⟨hkept, hdropped⟩ := kept_of_descend p t 0 t.depth
    unfold Batch.run at hf ⊢
    rw [show t.descend p 0 t.depth = t.insert p from rfl] at hleaf hkept hdropped
    rw [List.exists_mem_cons_iff]
    rcases hp : t.insert p with ⟨t', (drop | full) | ⟨⟩⟩ <;> rw [hp] at hs hleaf hkept hdropped hf <;>
      dsimp only at hs hleaf hkept hdropped hf ⊢
    · rw [ih (h.steps hs) _ hf, hs.depth_eq, hleaf]
      have hp := hdropped drop rfl
      simp [hp]
    · cases hf
    · rw [ih (h.steps hs) _ hf, hs.depth_eq, hleaf]
      have hp := hkept rfl
      simp [hp, or_assoc]

theorem not_leafAt_create {rootSize maxDepth : Nat} {t : Octree} (h : create rootSize maxDepth = .ok t)
    (limit : Nat) (path : List Nat) : ¬ (t.withLimit limit).LeafAt path := by
  rintro ⟨id, -, hn⟩
  rw [nodes_withLimit] at hn
  cases congrArg Node.kind (node_create h hn)

end Octree

end VoxelOctree
