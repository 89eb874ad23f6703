import VoxelOctree.Flatten.PostOrder
import VoxelOctree.Proofs.Octree.Order

namespace VoxelOctree

namespace Cell

def recordsBefore (resolve : Resolver) (children : Octant → Cell) (base level : Nat) (position : Vec3 Single)
    (slot : Nat) : List Record :=
  (Octant.all.take slot).flatMap fun k =>
    (children k).records resolve (base + countBefore children k.val) level (position.add (k.offset (2 ^ level)))

def linksBefore (base : Nat) (children : Octant → Cell) (slot : Nat) : List UInt32 :=
  (Octant.all.take slot).map fun k =>
    UInt32.ofNat (base + countBefore children k.val + (children k).count - 1)

variable (resolve : Resolver)

theorem records_split (children : Octant → Cell) (base level : Nat) (position : Vec3 Single) :
    (split children).records resolve base (level + 1) position =
      recordsBefore resolve children base level position 8 ++
        [.internal position (2 ^ (level + 1)) (links base children)] := rfl

theorem length_records (c : Cell) (base level : Nat) (position : Vec3 Single) :
    (c.records resolve base level position).length = c.count := by
  induction c generalizing base level position with
  | empty => rfl
  | leaf => rfl
  | split children ih =>
    rw [records, List.length_append, List.length_singleton, count_split,
      ← length_flatMap_take children _ (fun k => ih k _ _ _) 8]
    rfl

theorem length_recordsBefore (children : Octant → Cell) (base level : Nat) (position : Vec3 Single)
    (slot : Nat) : (recordsBefore resolve children base level position slot).length = countBefore children slot :=
  length_flatMap_take children _ (fun _ => length_records resolve _ _ _ _) slot

theorem size_append_recordsBefore (written : Array Record) (children : Octant → Cell) (base level : Nat)
    (position : Vec3 Single) (slot : Nat) :
    (written ++ (recordsBefore resolve children base level position slot).toArray).size =
      written.size + countBefore children slot := by
  simp [length_recordsBefore]

theorem recordsBefore_succ (children : Octant → Cell) (base level : Nat) (position : Vec3 Single) (k : Octant) :
    recordsBefore resolve children base level position (k.val + 1) =
      recordsBefore resolve children base level position k.val ++
        (children k).records resolve (base + countBefore children k.val) level
          (position.add (k.offset (2 ^ level))) := by
  simp only [recordsBefore, Octant.take_succ, List.flatMap_append, List.flatMap_singleton]

theorem linksBefore_succ (base : Nat) (children : Octant → Cell) (k : Octant) :
    linksBefore base children (k.val + 1) = linksBefore base children k.val ++
      [UInt32.ofNat (base + countBefore children k.val + (children k).count - 1)] := by
  simp only [linksBefore, Octant.take_succ, List.map_append, List.map_singleton]

end Cell

namespace Flatten

variable {t : Octree} (resolve : Resolver)

theorem walk_terminal {id level : Nat} {kind : Kind} (hn : t.nodes[id]? = some ⟨level, kind⟩)
    (hk : ∀ first, kind ≠ .internal first) (position : Vec3 Single) (tasks : List Task)
    (finished : List UInt32) (records : Array Record) :
    walk t resolve (.visit id level position :: tasks) finished records =
      walk t resolve tasks (UInt32.ofNat records.size :: finished) (records.push
        (.terminal position (2 ^ level) (resolve ⟨position, 2 ^ level, kind.isLeaf⟩) kind.isLeaf)) := by
  rw [walk.eq_def]
  simp only [Octree.kind?_of_node hn]
  cases kind with
  | internal first => exact absurd rfl (hk first)
  | empty => rfl
  | leaf => rfl

theorem walk_internal {id level first : Nat} (hn : t.nodes[id]? = some ⟨level + 1, .internal first⟩)
    (position : Vec3 Single) (tasks : List Task) (finished : List UInt32) (records : Array Record) :
    walk t resolve (.visit id (level + 1) position :: tasks) finished records =
      walk t resolve (branch first level position ++ tasks) finished records := by
  rw [walk.eq_def]
  simp only [Octree.kind?_of_node hn]

theorem walk_finish (base level : Nat) (children : Octant → Cell) (position : Vec3 Single) (tasks : List Task)
    (finished : List UInt32) (records : Array Record) :
    walk t resolve (.finish level position :: tasks) ((Cell.linksBefore base children 8).reverse ++ finished)
        records =
      walk t resolve tasks (UInt32.ofNat records.size :: finished)
        (records.push (.internal position (2 ^ level) (Cell.links base children))) := by
  rw [walk.eq_def]
  rfl

def Visits (t : Octree) (resolve : Resolver) (id level : Nat) : Prop :=
  ∀ (position : Vec3 Single) (tasks : List Task) (finished : List UInt32) (records : Array Record),
    walk t resolve (.visit id level position :: tasks) finished records =
      walk t resolve tasks (UInt32.ofNat (records.size + (t.cellAt id level).count - 1) :: finished)
        (records ++ ((t.cellAt id level).records resolve records.size level position).toArray)

theorem walk_branch {first level : Nat} (hv : ∀ k : Octant, Visits t resolve (first + k.val) level)
    (position : Vec3 Single) (tasks : List Task) (finished : List UInt32) (records : Array Record) :
    let children := fun k : Octant => t.cellAt (first + k.val) level
    walk t resolve (branch first level position ++ tasks) finished records =
      walk t resolve (.finish (level + 1) position :: tasks)
        ((Cell.linksBefore records.size children 8).reverse ++ finished)
        (records ++ (Cell.recordsBefore resolve children records.size level position 8).toArray) := by
  intro children
  let visit (k : Octant) : Task := .visit (first + k.val) level (position.add (k.offset (2 ^ level)))
  -- slot by slot: what is written is a prefix, what is left to visit the rest
  refine Octant.through (motive := fun slot => walk t resolve (branch first level position ++ tasks) finished records =
    walk t resolve ((Octant.all.drop slot).map visit ++ .finish (level + 1) position :: tasks)
      ((Cell.linksBefore records.size children slot).reverse ++ finished)
      (records ++ (Cell.recordsBefore resolve children records.size level position slot).toArray)) ?_ ?_
  · simp [branch, visit, Cell.linksBefore, Cell.recordsBefore]
  · intro k ih
    rw [ih, Octant.drop_val, List.map_cons, List.cons_append, hv k, Cell.size_append_recordsBefore,
      Cell.linksBefore_succ, Cell.recordsBefore_succ]
    simp [children]

theorem visits (h : t.Arena) {id level : Nat} {kind : Kind} (hn : t.nodes[id]? = some ⟨level, kind⟩) :
    Visits t resolve id level := by
  refine h.induction_on (motive := Visits t resolve) ?_ ?_ ?_ hn
  · intro id level hn position tasks finished records
    rw [walk_terminal resolve hn (by simp), Octree.cellAt_empty hn]
    simp [Cell.records, Cell.count, Kind.isLeaf]
  · intro id hn position tasks finished records
    rw [walk_terminal resolve hn (by simp), Octree.cellAt_leaf hn]
    simp [Cell.records, Cell.count, Kind.isLeaf]
  · intro id level first hn ih position tasks finished records
    rw [walk_internal resolve hn, walk_branch resolve ih, walk_finish, Octree.cellAt_internal hn,
      Cell.records_split, Cell.count_split, Cell.size_append_recordsBefore]
    simp

theorem subtree_eq (h : t.Arena) {id level : Nat} {kind : Kind} (hn : t.nodes[id]? = some ⟨level, kind⟩)
    (position : Vec3 Single) (records : Array Record) :
    subtree t resolve id level position records =
      .ok (UInt32.ofNat (records.size + (t.cellAt id level).count - 1),
        records ++ ((t.cellAt id level).records resolve records.size level position).toArray) := by
  rw [subtree, visits resolve h hn, walk.eq_def]
  rfl

end Flatten

theorem Octree.Arena.length_records {t : Octree} (h : t.Arena) (resolve : Resolver) (anchor : Vec3 Single) :
    (t.cell.records resolve 0 t.depth anchor).length = t.nodeCount := by
  rw [Cell.length_records, h.count_cell]

theorem Octree.flatten_eq {t : Octree} (h : t.Arena) (resolve : Resolver) (anchor : Vec3 Single) :
    t.flatten resolve anchor = .ok (t.cell.records resolve 0 t.depth anchor).toArray := by
  obtain ⟨kind, hr⟩ := h.root
  have hpos := t.cell.count_pos
  have hlength := t.cell.length_records resolve 0 t.depth anchor
  have hempty : (t.cell.records resolve 0 t.depth anchor).toArray.isEmpty = false := by
    rw [Array.isEmpty_eq_false_iff, ← Array.size_pos_iff, List.size_toArray, hlength]
    exact hpos
  have hroot : (UInt32.ofNat (t.cell.count - 1)).toNat = t.cell.count - 1 := by
    rw [h.count_cell] at hpos ⊢
    exact UInt32.toNat_ofNat_of_lt' ((Nat.sub_lt hpos Nat.one_pos).trans_le h.size_le_word)
  have hsubtree := Flatten.subtree_eq resolve h hr anchor #[]
  rw [List.size_toArray, List.length_nil, Nat.zero_add, Array.empty_append, ← cell] at hsubtree
  simp only [flatten, hsubtree, bind, Except.bind, hempty, hroot, List.size_toArray, hlength, Bool.false_eq_true,
    ↓reduceIte]
  rfl

end VoxelOctree
