import VoxelOctree.Error
import VoxelOctree.LittleEndian

namespace VoxelOctree

structure VoxelModel where
  size : Vec3 UInt32
  points : List Point
  deriving DecidableEq, Repr

namespace VoxelModel

def empty : VoxelModel := ⟨.fill 0, []⟩

def extent (m : VoxelModel) : Nat :=
  max 1 (max (max m.size.x.toNat m.size.y.toNat) m.size.z.toNat)

def powerAbove (n : Nat) : Nat :=
  if n ≤ 1 then 1 else 2 ^ ((n - 1).log2 + 1)

def rootSize (m : VoxelModel) : Except Fault Nat :=
  if m.extent ≤ 0x80000000 then .ok (powerAbove m.extent) else .error .addOverflow

end VoxelModel

end VoxelOctree
