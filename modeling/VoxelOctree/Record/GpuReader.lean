import VoxelOctree.Record.Gpu

namespace VoxelOctree

namespace GpuNode

def wordAt (bytes : List UInt8) (i : Nat) : UInt32 :=
  UInt32.ofNat (ofLittleEndian ((bytes.drop (4 * i)).take 4))

def singleAt (bytes : List UInt8) (i : Nat) : Single :=
  ⟨wordAt bytes i⟩

def vectorAt (bytes : List UInt8) (i : Nat) : Vec3 Single :=
  ⟨singleAt bytes i, singleAt bytes (i + 1), singleAt bytes (i + 2)⟩

def toRecord (bytes : List UInt8) : Record where
  position := vectorAt bytes 0
  orientation := ⟨vectorAt bytes 4, vectorAt bytes 8, vectorAt bytes 12⟩
  size := singleAt bytes 20
  material := ⟨vectorAt bytes 21, vectorAt bytes 25, singleAt bytes 29, singleAt bytes 30⟩
  children := Vector.ofFn fun k => wordAt bytes (31 + k.val)
  isLeaf := decide (wordAt bytes 39 ≠ 0)
  isEmpty := decide (wordAt bytes 40 ≠ 0)

def recordAt (bytes : List UInt8) (i : Nat) : Record :=
  toRecord ((bytes.drop (stride * i)).take stride)

end GpuNode

end VoxelOctree
