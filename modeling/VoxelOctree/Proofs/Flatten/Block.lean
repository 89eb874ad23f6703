import VoxelOctree.Proofs.Flatten.Walk

namespace VoxelOctree

namespace Record

def extent (r : Record) : Nat :=
  r.size.magnitude / 2 ^ BinaryFormat.binary32.scale

def link (r : Record) (k : Octant) : Nat :=
  r.children[k.val].toNat

theorem extent_of_size {r : Record} {level : Nat} (hl : level < 32) (h : r.size = Single.ofNat (2 ^ level)) :
    r.extent = 2 ^ level := by
  have hall : ∀ l : Fin 32, (Single.ofNat (2 ^ l.val)).magnitude / 2 ^ BinaryFormat.binary32.scale = 2 ^ l.val := by
    decide
  rw [extent, h]
  exact hall ⟨level, hl⟩

theorem link_internal (position : Vec3 Single) (size : Nat) {cut : Nat → Nat} {k : Octant}
    (hpos : 0 < cut (k.val + 1)) (hle : cut (k.val + 1) ≤ UInt32.size) :
    (internal position size (Vector.ofFn fun k => UInt32.ofNat (cut (k.val + 1) - 1))).link k =
      cut (k.val + 1) - 1 := by
  simp only [link, internal, Vector.getElem_ofFn]
  exact UInt32.toNat_ofNat_of_lt' (by omega)

end Record

def StandsAt {α : Type} (whole part : List α) (lo : Nat) : Prop :=
  ∃ front back, whole = front ++ part ++ back ∧ front.length = lo

namespace StandsAt

variable {α : Type} {whole part other : List α} {lo : Nat}

theorem left (h : StandsAt whole (part ++ other) lo) : StandsAt whole part lo := by
  obtain ⟨front, back, hw, hf⟩ := h
  exact ⟨front, other ++ back, by simp [hw], hf⟩

theorem right (h : StandsAt whole (part ++ other) lo) : StandsAt whole other (lo + part.length) := by
  obtain ⟨front, back, hw, hf⟩ := h
  exact ⟨front ++ part, back, by simp [hw], by simp [hf]⟩

theorem getElem? {a : α} (h : StandsAt whole [a] lo) : whole[lo]? = some a := by
  obtain ⟨front, back, rfl, rfl⟩ := h
  simp

theorem octant {children : Octant → Cell} {f : Octant → List α} (hf : ∀ k, (f k).length = (children k).count)
    (h : StandsAt whole (Octant.all.flatMap f) lo) (k : Octant) :
    StandsAt whole (f k) (lo + Cell.countBefore children k.val) := by
  have hall : Octant.all = Octant.all.take k.val ++ k :: Octant.all.drop (k.val + 1) := by
    rw [← Octant.drop_val, List.take_append_drop]
  rw [hall, List.flatMap_append, List.flatMap_cons] at h
  rw [← Cell.length_flatMap_take children f hf]
  exact h.right.left

end StandsAt

/-- The records from `lo` up to `hi` are those of a node of the given level and all below it. Record number
`i` is that of node `ids[i]`. -/
inductive Block (t : Octree) (resolve : Resolver) (records : Array Record) (ids : List Nat) :
    (id level : Nat) → (position : Vec3 Single) → (lo hi : Nat) → Prop
  | terminal {id level lo : Nat} {kind : Kind} {position : Vec3 Single}
      (hn : t.nodes[id]? = some ⟨level, kind⟩) (hk : ∀ first, kind ≠ .internal first) (hid : ids[lo]? = some id)
      (hr : records[lo]? = some
        (.terminal position (2 ^ level) (resolve ⟨position, 2 ^ level, kind.isLeaf⟩) kind.isLeaf)) :
      Block t resolve records ids id level position lo (lo + 1)
  | internal {id level first lo last : Nat} {position : Vec3 Single} {cut : Nat → Nat}
      (hn : t.nodes[id]? = some ⟨level + 1, .internal first⟩) (hlo : cut 0 = lo) (hlast : cut 8 = last)
      (hc : ∀ k : Octant, Block t resolve records ids (first + k.val) level
        (position.add (k.offset (2 ^ level))) (cut k.val) (cut (k.val + 1)))
      (hid : ids[last]? = some id)
      (hr : records[last]? = some (.internal position (2 ^ (level + 1))
        (Vector.ofFn fun k => UInt32.ofNat (cut (k.val + 1) - 1)))) :
      Block t resolve records ids id (level + 1) position lo (last + 1)

theorem block_of_standsAt {t : Octree} (h : t.Arena) (resolve : Resolver) (records : Array Record) (ids : List Nat)
    {id level : Nat} {kind : Kind} (hn : t.nodes[id]? = some ⟨level, kind⟩) (position : Vec3 Single) (lo : Nat)
    (hr : StandsAt records.toList ((t.cellAt id level).records resolve lo level position) lo)
    (hi : StandsAt ids (t.order id level) lo) :
    Block t resolve records ids id level position lo (lo + (t.cellAt id level).count) := by
  revert hr hi
  refine h.induction_on (motive := fun id level => ∀ position lo,
    StandsAt records.toList ((t.cellAt id level).records resolve lo level position) lo →
    StandsAt ids (t.order id level) lo →
    Block t resolve records ids id level position lo (lo + (t.cellAt id level).count)) ?_ ?_ ?_ hn position lo
  · intro id level hn position lo hr hi
    rw [Octree.order_terminal hn (by simp)] at hi
    rw [Octree.cellAt_empty hn] at hr ⊢
    have hr := hr.getElem?
    rw [Array.getElem?_toList] at hr
    exact .terminal hn (by simp) hi.getElem? hr
  · intro id hn position lo hr hi
    rw [Octree.order_terminal hn (by simp)] at hi
    rw [Octree.cellAt_leaf hn] at hr ⊢
    have hr := hr.getElem?
    rw [Array.getElem?_toList] at hr
    exact .terminal hn (by simp) hi.getElem? hr
  · intro id level first hn ih position lo hr hi
    let children (k : Octant) : Cell := t.cellAt (first + k.val) level
    have hlength (k : Octant) : (t.order (first + k.val) level).length = (children k).count := by
      obtain ⟨kind, hc⟩ := h.child hn k
      exact h.length_order hc
    rw [Octree.order_internal hn] at hi
    rw [Octree.cellAt_internal hn, Cell.records_split] at hr
    rw [Octree.cellAt_internal hn, Cell.count_split, ← Nat.add_assoc]
    have hid := hi.right.getElem?
    have hown := hr.right.getElem?
    rw [← List.take_length (l := Octant.all), Cell.length_flatMap_take children _ hlength] at hid
    rw [Cell.length_recordsBefore, Array.getElem?_toList] at hown
    let cut (slot : Nat) : Nat := lo + Cell.countBefore children slot
    have hlo : cut 0 = lo := rfl
    refine .internal hn hlo rfl ?_ hid ?_
    · intro k
      have hblock := ih k _ _ (hr.left.octant (fun k => Cell.length_records resolve (children k) _ _ _) k)
        (hi.left.octant hlength k)
      rw [Nat.add_assoc, ← Cell.countBefore_succ children] at hblock
      exact hblock
    · rw [hown, Cell.links]
      simp only [cut, Cell.countBefore_succ, Nat.add_assoc, children]

theorem exists_block {t : Octree} (h : t.Arena) (resolve : Resolver) (anchor : Vec3 Single) :
    ∃ records : Array Record, t.flatten resolve anchor = .ok records ∧ records.size = t.nodeCount ∧
      Block t resolve records (t.order 0 t.depth) 0 t.depth anchor 0 records.size := by
  obtain ⟨kind, hr⟩ := h.root
  refine ⟨_, Octree.flatten_eq h resolve anchor, h.length_records resolve anchor, ?_⟩
  have hb := block_of_standsAt h resolve (t.cell.records resolve 0 t.depth anchor).toArray (t.order 0 t.depth) hr
    anchor 0 ⟨[], [], by simp [Octree.cell], rfl⟩ ⟨[], [], by simp, rfl⟩
  rwa [Nat.zero_add, ← Octree.cell, ← Cell.length_records resolve t.cell 0 t.depth anchor, ← List.size_toArray] at hb

namespace Block

variable {t : Octree} {resolve : Resolver} {records : Array Record} {ids : List Nat} {id level lo hi : Nat}
  {position : Vec3 Single}

theorem lt (h : Block t resolve records ids id level position lo hi) : lo < hi := by
  induction h with
  | terminal => exact Nat.lt_succ_self _
  | internal hn hlo hlast hc hid hr ih =>
    have := Octant.monotone_slots (fun k => (ih k).le) (Nat.zero_le 8) (Nat.le_refl 8)
    omega

theorem le_size (h : Block t resolve records ids id level position lo hi) : hi ≤ records.size := by
  cases h with
  | terminal hn hk hid hr => exact (Array.getElem?_eq_some_iff.mp hr).1
  | internal hn hlo hlast hc hid hr => exact (Array.getElem?_eq_some_iff.mp hr).1

theorem node (h : Block t resolve records ids id level position lo hi) :
    ∃ kind, t.nodes[id]? = some ⟨level, kind⟩ ∧ ids[hi - 1]? = some id := by
  cases h with
  | terminal hn hk hid hr => exact ⟨_, hn, hid⟩
  | internal hn hlo hlast hc hid hr => exact ⟨_, hn, hid⟩

theorem exists_inner (h : Block t resolve records ids id level position lo hi) {j : Nat} (hlo : lo ≤ j)
    (hhi : j < hi) : ∃ id' level' position' lo', level' ≤ level ∧ lo ≤ lo' ∧
      Block t resolve records ids id' level' position' lo' (j + 1) := by
  induction h with
  | @terminal id level lo kind position hn hk hid hr =>
    obtain rfl : j = lo := by omega
    exact ⟨id, level, position, j, Nat.le_refl _, Nat.le_refl _, .terminal hn hk hid hr⟩
  | @internal id level first lo last position cut hn hlo' hlast hc hid hr ih =>
    by_cases hj : j = last
    · subst hj
      exact ⟨id, level + 1, position, lo, Nat.le_refl _, Nat.le_refl _, .internal hn hlo' hlast hc hid hr⟩
    · obtain ⟨k, hk, hk'⟩ := Octant.exists_slot (f := cut) (j := j) (by omega) (by omega)
      obtain ⟨id', level', position', lo', hlevel, hle, hb⟩ := ih k hk hk'
      have := Octant.monotone_slots (fun k => (hc k).lt.le) (Nat.zero_le k.val) k.isLt.le
      exact ⟨id', level', position', lo', by omega, by omega, hb⟩

theorem of_terminal {i : Nat} {r : Record} (h : Block t resolve records ids id level position lo (i + 1))
    (hr : records[i]? = some r) (hi : r.isInternal = false) :
    ∃ kind, t.nodes[id]? = some ⟨level, kind⟩ ∧ (∀ first, kind ≠ .internal first) ∧ lo = i ∧
      r = .terminal position (2 ^ level) (resolve ⟨position, 2 ^ level, kind.isLeaf⟩) kind.isLeaf := by
  cases h with
  | terminal hn hk hid hr' => exact ⟨_, hn, hk, rfl, Option.some.inj (hr.symm.trans hr')⟩
  | internal hn hlo hlast hc hid hr' =>
    obtain rfl := Option.some.inj (hr.symm.trans hr')
    cases hi

theorem of_internal {i : Nat} {r : Record} (h : Block t resolve records ids id level position lo (i + 1))
    (hs : records.size ≤ UInt32.size) (hr : records[i]? = some r) (hi : r.isInternal = true) :
    ∃ below first, ∃ cut : Nat → Nat, level = below + 1 ∧ t.nodes[id]? = some ⟨below + 1, .internal first⟩ ∧
      cut 0 = lo ∧ cut 8 = i ∧ (∀ k : Octant, r.link k + 1 = cut (k.val + 1)) ∧
      (∀ k : Octant, Block t resolve records ids (first + k.val) below (position.add (k.offset (2 ^ below)))
        (cut k.val) (cut (k.val + 1))) ∧
      r.position = position ∧ r.size = Single.ofNat (2 ^ (below + 1)) := by
  cases h with
  | @terminal _ _ _ kind _ hn hk hid hr' =>
    obtain rfl := Option.some.inj (hr.symm.trans hr')
    revert hi
    cases kind.isLeaf <;> intro hi <;> cases hi
  | @internal _ below first _ _ _ cut hn hlo hlast hc hid hr' =>
    obtain rfl := Option.some.inj (hr.symm.trans hr')
    refine ⟨below, first, cut, rfl, hn, hlo, hlast, ?_, hc, rfl, rfl⟩
    intro k
    have hlt := (hc k).lt
    have hle := (hc k).le_size
    rw [Record.link_internal position _ (by omega) (hle.trans hs)]
    omega

end Block

end VoxelOctree
