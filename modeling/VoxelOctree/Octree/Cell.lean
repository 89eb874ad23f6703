import VoxelOctree.Octree

namespace VoxelOctree

inductive Cell where
  | empty
  | leaf
  | split (children : Octant → Cell)

namespace Cell

def count : Cell → Nat
  | empty => 1
  | leaf => 1
  | split children => Octant.all.foldl (fun n k => n + (children k).count) 1

def countBefore (children : Octant → Cell) (slot : Nat) : Nat :=
  (Octant.all.take slot).foldl (fun n k => n + (children k).count) 0

end Cell

namespace Octree

def cellAt (t : Octree) (id : Nat) : Nat → Cell
  | 0 => if t.kind? id = some .leaf then .leaf else .empty
  | level + 1 =>
    match t.kind? id with
    | some (.internal first) => .split fun k => t.cellAt (first + k.val) level
    | some .leaf => .leaf
    | _ => .empty

def cell (t : Octree) : Cell :=
  t.cellAt 0 t.depth

end Octree

end VoxelOctree
