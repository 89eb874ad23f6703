import VoxelOctree.Vox

namespace VoxelOctree

namespace Vox

def Chunk.bytes (c : Chunk) : List UInt8 :=
  c.id ++ littleEndian c.content.length 4 ++ littleEndian c.children.length 4 ++ c.content ++ c.children

structure Voxel where
  x : UInt8
  y : UInt8
  z : UInt8
  color : UInt8
  deriving DecidableEq, Repr

def Voxel.point (v : Voxel) : Point :=
  ⟨v.x.toUInt32, v.y.toUInt32, v.z.toUInt32⟩

structure ModelChunks where
  size : Vec3 UInt32
  voxels : List Voxel
  beforeSize : List Chunk := []
  beforeVoxels : List Chunk := []
  deriving DecidableEq, Repr

namespace ModelChunks

def sizeChunk (m : ModelChunks) : Chunk :=
  ⟨sizeId, m.size.toList.flatMap fun n => littleEndian n.toNat 4, []⟩

def voxelsChunk (m : ModelChunks) : Chunk :=
  ⟨voxelsId, littleEndian m.voxels.length 4 ++ m.voxels.flatMap fun v => [v.x, v.y, v.z, v.color], []⟩

def chunks (m : ModelChunks) : List Chunk :=
  m.beforeSize ++ m.sizeChunk :: m.beforeVoxels ++ [m.voxelsChunk]

def model (m : ModelChunks) : VoxelModel :=
  ⟨m.size, m.voxels.map Voxel.point⟩

end ModelChunks

structure File where
  version : UInt32
  content : List UInt8
  models : List ModelChunks
  afterModels : List Chunk
  trailing : List UInt8
  deriving DecidableEq, Repr

def File.main (f : File) : Chunk :=
  ⟨mainId, f.content, (f.models.flatMap ModelChunks.chunks ++ f.afterModels).flatMap Chunk.bytes⟩

def File.bytes (f : File) : List UInt8 :=
  magic ++ littleEndian f.version.toNat 4 ++ f.main.bytes ++ f.trailing

end Vox

end VoxelOctree
