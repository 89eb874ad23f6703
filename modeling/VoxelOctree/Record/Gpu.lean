import VoxelOctree.LittleEndian
import VoxelOctree.Record

/-!
Records as the renderer's storage buffer holds them: 44 words of 32 bits each, least significant byte
first. Vectors are padded to four numbers and the orientation to a homogeneous matrix.
-/

namespace VoxelOctree

structure Vec4 (α : Type) where
  x : α
  y : α
  z : α
  w : α
  deriving DecidableEq, Repr

namespace Vec4

def ofVec3 {α : Type} (v : Vec3 α) (w : α) : Vec4 α :=
  ⟨v.x, v.y, v.z, w⟩

def toList {α : Type} (v : Vec4 α) : List α :=
  [v.x, v.y, v.z, v.w]

end Vec4

structure GpuNode where
  position : Vec4 Single
  rotation : Vec4 (Vec4 Single)
  size : Single
  emittance : Vec4 Single
  reflectance : Vec4 Single
  roughness : Single
  opacity : Single
  children : Vector UInt32 8
  isLeaf : UInt32
  isNone : UInt32
  padding : Vec3 UInt32
  deriving DecidableEq, Repr

namespace GpuNode

def stride : Nat := 176

def ofFlag (b : Bool) : UInt32 :=
  if b then 1 else 0

def ofRecord (r : Record) : GpuNode where
  position := .ofVec3 r.position .zero
  rotation := .ofVec3 (r.orientation.map fun row => .ofVec3 row .zero) ⟨.zero, .zero, .zero, .one⟩
  size := r.size
  emittance := .ofVec3 r.material.emittance .zero
  reflectance := .ofVec3 r.material.reflectance .zero
  roughness := r.material.roughness
  opacity := r.material.opacity
  children := r.children
  isLeaf := ofFlag r.isLeaf
  isNone := ofFlag r.isEmpty
  padding := .fill 0

def words (n : GpuNode) : List UInt32 :=
  n.position.toList.map Single.bits ++
  n.rotation.toList.flatMap (fun row => row.toList.map Single.bits) ++
  [n.size.bits] ++
  n.emittance.toList.map Single.bits ++
  n.reflectance.toList.map Single.bits ++
  [n.roughness.bits, n.opacity.bits] ++
  n.children.toList ++
  [n.isLeaf, n.isNone] ++
  n.padding.toList

def bytes (n : GpuNode) : List UInt8 :=
  n.words.flatMap fun w => littleEndian w.toNat 4

end GpuNode

namespace Record

def gpuBytes (records : List Record) : List UInt8 :=
  records.flatMap fun r => (GpuNode.ofRecord r).bytes

end Record

end VoxelOctree
