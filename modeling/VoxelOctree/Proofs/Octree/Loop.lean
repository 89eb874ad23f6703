import VoxelOctree.Octree.Loop
import VoxelOctree.Proofs.Octree.Descent

namespace VoxelOctree

theorem Node.size_ne_one (level : Nat) (kind : Kind) : Node.size ⟨level + 1, kind⟩ ≠ 1 := by
  have := Node.two_le_size (n := ⟨level + 1, kind⟩) (Nat.succ_pos level)
  omega

namespace Octree

variable {t t' : Octree} {p : Point} {id level : Nat} {kind : Kind} {n : Node} {k : Octant}

theorem node_eq_ok (hn : t.nodes[id]? = some n) : t.node id = .ok n := by
  rw [node, hn]

theorem setKind_append {new : Array Node} (hid : id < t.nodes.size) (kind : Kind) :
    setKind { t with nodes := t.nodes ++ new } id kind =
      { t with nodes := (t.nodes.modify id fun n => { n with kind }) ++ new } := by
  rw [setKind]
  congr 1
  apply Array.ext_getElem?
  intro i
  simp only [Array.getElem?_modify, Array.getElem?_append, Array.size_modify]
  split_ifs with he hi
  · rfl
  · omega
  · rfl
  · rfl

-- The new nodes may be appended before the old one is changed, since its number is below theirs.
theorem grow_eq (h : Arena t) (hn : t.nodes[id]? = some ⟨level + 1, .empty⟩)
    (hl : t.nodes.size + 8 ≤ t.limit) :
    t.grow id ⟨level + 1, .empty⟩ = .ok (t.subdivide id level, t.nodes.size) := by
  have hroom : t.nodes.size + 7 < UInt32.size := by
    have hlimit := h.limit_le
    have hmax : maxNodes < UInt32.size := by decide
    omega
  have hfirst : (UInt32.ofNat t.nodes.size).toNat = t.nodes.size := h.toNat_ofNat (Nat.le_refl t.nodeCount)
  rw [grow, hfirst]
  simp only [hroom, ↓reduceIte, Nat.add_sub_cancel, setKind_append (lt_of_node hn)]
  rfl

theorem round_unit (hn : t.nodes[id]? = some ⟨0, kind⟩) :
    t.round p id = .ok (.done (t.setKind id .leaf) (.ok ())) := by
  rw [round, node_eq_ok hn]
  rfl

theorem round_plane (hn : t.nodes[id]? = some ⟨level + 1, kind⟩) (hp : Octant.ofPoint p (2 ^ level) = none) :
    t.round p id = .ok (.done t (.error (.dropped ⟨p, 2 ^ (level + 1), 2 ^ level⟩))) := by
  simp only [round, node_eq_ok hn, Node.half_size, hp, Node.size_ne_one, bind, Except.bind, ↓reduceIte]
  rfl

theorem round_down {first : Nat} (hn : t.nodes[id]? = some ⟨level + 1, .internal first⟩)
    (hp : Octant.ofPoint p (2 ^ level) = some k) : t.round p id = .ok (.next t (first + k.val)) := by
  simp only [round, node_eq_ok hn, Node.half_size, hp, Node.size_ne_one, bind, Except.bind, ↓reduceIte]
  rfl

theorem round_full (hn : t.nodes[id]? = some ⟨level + 1, .empty⟩) (hp : Octant.ofPoint p (2 ^ level) = some k)
    (hl : t.limit < t.nodes.size + 8) :
    t.round p id = .ok (.done t (.error (.arenaFull ⟨t.nodes.size, t.limit⟩))) := by
  simp only [round, node_eq_ok hn, Node.half_size, hp, hl, Node.size_ne_one, bind, Except.bind, ↓reduceIte]
  rfl

theorem round_split (h : Arena t) (hn : t.nodes[id]? = some ⟨level + 1, .empty⟩)
    (hp : Octant.ofPoint p (2 ^ level) = some k) (hl : t.nodes.size + 8 ≤ t.limit) :
    t.round p id = .ok (.next (t.subdivide id level) (t.nodes.size + k.val)) := by
  simp only [round, node_eq_ok hn, Node.half_size, hp, Nat.not_lt_of_le hl, grow_eq h hn hl, Node.size_ne_one, bind,
    Except.bind, ↓reduceIte]
  rfl

-- A node of level `level + 1` is halved `level + 1` times, and one more round marks the leaf.
theorem Descent.loop_eq {trail : List Nat} {r : Except InsertError Unit} (hd : Descent p t id level trail t' r)
    (h : Arena t) : t.loop p id (level + 1) = .ok (some (t', r)) := by
  induction hd with
  | reach hn => rw [loop, round_unit hn]
  | plane hn hp => rw [loop, round_plane hn hp]
  | full hn hp hl => rw [loop, round_full hn hp hl]
  | down hn hp hd ih =>
    rw [loop, round_down hn hp]
    exact ih h
  | split hn hp hl hd ih =>
    rw [loop, round_split h hn hp hl]
    exact ih (h.split hn hl)

theorem Arena.loop_eq (h : Arena t) (p : Point) : t.loop p 0 (t.depth + 1) = .ok (some (t.insert p)) := by
  obtain ⟨trail, hd, -⟩ := h.insert_spec p
  exact hd.loop_eq h

end Octree

theorem Batch.loop_eq (points : List Point) (report : InsertReport) {t : Octree} (h : t.Arena) :
    Batch.loop (t.depth + 1) t report points = .ok (some (Batch.run t report points)) := by
  induction points generalizing t report with
  | nil => rfl
  | cons p rest ih =>
    have hs := Octree.insert_steps p h
    unfold Batch.loop Batch.run
    rw [h.loop_eq p]
    rw [← hs.depth_eq]
    generalize t.insert p = next at hs
    rcases next with ⟨t', (drop | full) | ⟨⟩⟩
    · exact ih _ (h.steps hs)
    · rfl
    · exact ih _ (h.steps hs)

end VoxelOctree
