import VoxelOctree.Flatten
import VoxelOctree.Octree.Cell

namespace VoxelOctree

namespace Cell

def links (base : Nat) (children : Octant → Cell) : Vector UInt32 8 :=
  Vector.ofFn fun k => UInt32.ofNat (base + countBefore children k.val + (children k).count - 1)

def records (resolve : Resolver) : Cell → (base level : Nat) → (position : Vec3 Single) → List Record
  | empty, _, level, position =>
    [.terminal position (2 ^ level) (resolve ⟨position, 2 ^ level, false⟩) false]
  | leaf, _, level, position =>
    [.terminal position (2 ^ level) (resolve ⟨position, 2 ^ level, true⟩) true]
  | split children, base, level, position =>
    (Octant.all.flatMap fun k => (children k).records resolve (base + countBefore children k.val)
      (level - 1) (position.add (k.offset (2 ^ (level - 1))))) ++
      [.internal position (2 ^ level) (links base children)]

end Cell

end VoxelOctree
