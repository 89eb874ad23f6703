import VoxelOctree.Error
import VoxelOctree.Octant

/-!
The arena of an octree. Node 0 is the root, a node of level `n` has size `2 ^ n`, and the eight
children of a node have consecutive numbers.
-/

namespace VoxelOctree

inductive Kind where
  | empty
  | leaf
  | internal (first : Nat)
  deriving DecidableEq, Repr

namespace Kind

def isLeaf (k : Kind) : Bool :=
  decide (k = leaf)

def isEmpty (k : Kind) : Bool :=
  decide (k = empty)

def children? : Kind → Option (List Nat)
  | internal first => some (Octant.all.map fun k => first + k.val)
  | _ => none

end Kind

structure Node where
  level : Nat
  kind : Kind
  deriving DecidableEq, Repr

def Node.size (n : Node) : Nat :=
  2 ^ n.level

structure Octree where
  depth : Nat
  limit : Nat
  nodes : Array Node
  deriving DecidableEq, Repr

namespace Octree

def maxNodes : Nat := UInt32.size - 1

def defaultMaxDepth : Nat := 16

def create (rootSize maxDepth : Nat) : Except Error Octree :=
  let depth := rootSize.log2
  if rootSize ≠ 2 ^ depth then .error (.invalidRootSize rootSize)
  else if maxDepth < depth then .error (.depthLimitExceeded rootSize depth maxDepth)
  else .ok ⟨depth, maxNodes, #[⟨depth, .empty⟩]⟩

def withLimit (t : Octree) (limit : Nat) : Octree :=
  { t with limit := min limit maxNodes }

def rootSize (t : Octree) : Nat :=
  2 ^ t.depth

def nodeCount (t : Octree) : Nat :=
  t.nodes.size

def leafCount (t : Octree) : Nat :=
  t.nodes.countP fun n => n.kind.isLeaf

def kind? (t : Octree) (id : Nat) : Option Kind :=
  t.nodes[id]?.map Node.kind

def isEmpty (t : Octree) : Bool :=
  decide (t.kind? 0 = some .empty)

def follow (t : Octree) (id : Nat) : List Nat → Option Nat
  | [] => some id
  | slot :: rest =>
    match t.kind? id with
    | some (.internal first) => if slot < 8 then t.follow (first + slot) rest else none
    | _ => none

/-- The capacity of a growing array after `n` more blocks of eight: it doubles when a block does not
fit, and is never smaller than what it has to hold, nor than four. -/
def capacity (cap len : Nat) : Nat → Nat
  | 0 => cap
  | n + 1 => capacity (if cap - len < 8 then max (max (2 * cap) (len + 8)) 4 else cap) (len + 8) n

def memory (t : Octree) : Nat :=
  40 + 40 * capacity 1 1 ((t.nodes.size - 1) / 8)

end Octree

end VoxelOctree
