import VoxelOctree.Proofs.Flatten.Walk

namespace VoxelOctree

namespace Record

def moved (offset : UInt32) (r : Record) : Record :=
  if r.isInternal then { r with children := r.children.map (· + offset) } else r

theorem rebase_eq {offset : UInt32} {r : Record}
    (h : ∀ c ∈ r.children, c.toNat + offset.toNat < UInt32.size) : r.rebase offset = .ok (r.moved offset) := by
  unfold rebase moved
  have hall : (r.children.all fun c => decide (c.toNat + offset.toNat < UInt32.size)) = true :=
    Vector.all_eq_true_iff_forall_mem.mpr fun c hc => decide_eq_true (h c hc)
  rw [hall]
  cases r.isInternal <;> rfl

end Record

namespace Cell

variable (resolve : Resolver)

theorem moved_links (children : Octant → Cell) (base offset : Nat) :
    (links base children).map (· + UInt32.ofNat offset) = links (base + offset) children := by
  ext i hi
  have hpos := (children ⟨i, hi⟩).count_pos
  simp only [links, Vector.getElem_map, Vector.getElem_ofFn, ← UInt32.ofNat_add]
  congr 2
  omega

theorem moved_records (c : Cell) (base offset level : Nat) (position : Vec3 Single) :
    (c.records resolve base level position).map (Record.moved (UInt32.ofNat offset)) =
      c.records resolve (base + offset) level position := by
  induction c generalizing base level position with
  | empty => rfl
  | leaf => rfl
  | split children ih =>
    simp only [records, List.map_append, List.map_flatMap, ih, List.map_singleton, ← moved_links]
    congr 1
    apply List.flatMap_congr
    intro k _
    rw [Nat.add_right_comm]

theorem link_lt (c : Cell) (base level : Nat) (position : Vec3 Single) (hb : base + c.count ≤ UInt32.size) :
    ∀ r ∈ c.records resolve base level position, ∀ link ∈ r.children, link.toNat < base + c.count := by
  induction c generalizing base level position with
  | empty => simp [records, Record.terminal, Record.nullChild, count]
  | leaf => simp [records, Record.terminal, Record.nullChild, count]
  | split children ih =>
    rw [count_split] at hb ⊢
    intro r hr link hl
    rcases List.mem_append.mp hr with hr | hr
    · obtain ⟨k, -, hk⟩ := List.mem_flatMap.mp hr
      have hle := countBefore_add_le children k
      have := ih k _ _ _ (by omega) r hk link hl
      omega
    · obtain rfl := List.mem_singleton.mp hr
      obtain ⟨i, hi, rfl⟩ := Vector.mem_iff_getElem.mp hl
      have hle := countBefore_add_le children ⟨i, hi⟩
      have hpos := (children ⟨i, hi⟩).count_pos
      dsimp only at hle
      simp only [Record.internal, links, Vector.getElem_ofFn]
      rw [UInt32.toNat_ofNat_of_lt' (by omega)]
      omega

end Cell

namespace Flatten

variable (resolve : Resolver)

theorem mapM_ok {α β ε : Type} {f : α → Except ε β} {g : α → β} {xs : List α}
    (h : ∀ x ∈ xs, f x = .ok (g x)) : xs.mapM f = .ok (xs.map g) := by
  induction xs with
  | nil => rfl
  | cons x xs ih =>
    rw [List.mapM_cons, h x (by simp), ih fun y hy => h y (List.mem_cons_of_mem x hy)]
    rfl

theorem rebase_records (c : Cell) (offset level : Nat) (position : Vec3 Single)
    (hb : offset + c.count ≤ UInt32.size) :
    (c.records resolve 0 level position).toArray.mapM (Record.rebase (UInt32.ofNat offset)) =
      .ok (c.records resolve offset level position).toArray := by
  have hpos := c.count_pos
  have hr (r : Record) (hr : r ∈ c.records resolve 0 level position) :
      r.rebase (UInt32.ofNat offset) = .ok (r.moved (UInt32.ofNat offset)) := by
    apply Record.rebase_eq
    intro link hl
    have hlt := c.link_lt resolve 0 level position (by omega) r hr link hl
    rw [UInt32.toNat_ofNat_of_lt' (by omega)]
    omega
  have he := c.moved_records resolve 0 offset level position
  rw [Nat.zero_add] at he
  rw [List.mapM_toArray, mapM_ok hr, he]
  rfl

theorem join_eq (c : Cell) (level : Nat) (position : Vec3 Single) (links : List UInt32) (records : Array Record)
    (hb : records.size + c.count ≤ UInt32.size) :
    join (links, records) (UInt32.ofNat (c.count - 1), (c.records resolve 0 level position).toArray) =
      .ok (links ++ [UInt32.ofNat (records.size + c.count - 1)],
        records ++ (c.records resolve records.size level position).toArray) := by
  have hpos := c.count_pos
  have hroot : (UInt32.ofNat (c.count - 1)).toNat = c.count - 1 := UInt32.toNat_ofNat_of_lt' (by omega)
  have hoff : (UInt32.ofNat records.size).toNat = records.size := UInt32.toNat_ofNat_of_lt' (by omega)
  have hsum : UInt32.ofNat (c.count - 1) + UInt32.ofNat records.size = UInt32.ofNat (records.size + c.count - 1) := by
    rw [← UInt32.ofNat_add]
    congr 1
    omega
  have hfit : c.count - 1 + records.size < UInt32.size := by omega
  simp only [join, rebase_records resolve c records.size level position hb, hroot, hoff, hsum, hfit, ↓reduceIte]
  rfl

theorem join_all (children : Octant → Cell) (level : Nat) (position : Vec3 Single)
    (hb : Cell.countBefore children 8 ≤ UInt32.size) :
    (Octant.all.map fun k => (UInt32.ofNat ((children k).count - 1),
        ((children k).records resolve 0 level (position.add (k.offset (2 ^ level)))).toArray)).foldlM join ([], #[]) =
      .ok (Cell.linksBefore 0 children 8, (Cell.recordsBefore resolve children 0 level position 8).toArray) := by
  refine Octant.through (motive := fun slot => ((Octant.all.take slot).map fun k =>
      (UInt32.ofNat ((children k).count - 1),
        ((children k).records resolve 0 level (position.add (k.offset (2 ^ level)))).toArray)).foldlM join ([], #[]) =
      .ok (Cell.linksBefore 0 children slot, (Cell.recordsBefore resolve children 0 level position slot).toArray))
    rfl ?_
  intro k ih
  have hsize : (Cell.recordsBefore resolve children 0 level position k.val).toArray.size =
      Cell.countBefore children k.val := by
    rw [List.size_toArray, Cell.length_recordsBefore]
  have hle := Cell.countBefore_add_le children k
  rw [Octant.take_succ, List.map_append, List.foldlM_append, ih, Cell.linksBefore_succ, Cell.recordsBefore_succ]
  show join _ _ >>= pure = _
  rw [bind_pure, join_eq resolve (children k) level _ _ _ (by omega), hsize, Nat.zero_add, List.append_toArray]

end Flatten

theorem Octree.flattenByOctant_eq {t : Octree} (h : t.Arena) (resolve : Resolver) (anchor : Vec3 Single) :
    t.flattenByOctant resolve anchor = .ok (t.cell.records resolve 0 t.depth anchor).toArray := by
  obtain ⟨kind, hr⟩ := h.root
  unfold flattenByOctant
  split
  · next level first hn =>
    obtain ⟨hd, rfl⟩ : t.depth = level + 1 ∧ kind = .internal first := by simpa [hr] using hn
    rw [hd] at hr
    have hcell : t.cell = .split fun k => t.cellAt (first + k.val) level := by
      rw [cell, hd, cellAt_internal hr]
    have hcount : Cell.countBefore (fun k => t.cellAt (first + k.val) level) 8 ≤ UInt32.size := by
      have hs := h.size_le_word
      rw [← nodeCount, ← h.count_cell, hcell, Cell.count_split] at hs
      omega
    have hpart (k : Octant) : Flatten.subtree t resolve (first + k.val) level (anchor.add (k.offset (2 ^ level))) #[] =
        .ok (UInt32.ofNat ((t.cellAt (first + k.val) level).count - 1), ((t.cellAt (first + k.val) level).records
          resolve 0 level (anchor.add (k.offset (2 ^ level)))).toArray) := by
      obtain ⟨kind, hc⟩ := h.child hr k
      simpa using Flatten.subtree_eq resolve h hc (anchor.add (k.offset (2 ^ level))) #[]
    rw [Flatten.mapM_ok fun k _ => hpart k]
    simp only [bind, Except.bind]
    rw [Flatten.join_all resolve _ level anchor hcount, hcell, hd, Cell.records_split, ← List.push_toArray]
    rfl
  · exact flatten_eq h resolve anchor

end VoxelOctree
