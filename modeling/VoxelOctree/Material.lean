import VoxelOctree.ChaCha
import VoxelOctree.Record

namespace VoxelOctree

structure Terminal where
  position : Vec3 Single
  size : Nat
  isLeaf : Bool
  deriving DecidableEq, Repr

abbrev Resolver := Terminal → Material

namespace Resolver

def uniform (m : Material) : Resolver :=
  fun _ => m

def key (seed : UInt64) (t : Terminal) : List UInt8 :=
  littleEndian seed.toNat 8 ++
  t.position.toList.flatMap (fun a => littleEndian a.bits.toNat 4) ++
  littleEndian t.size 4 ++
  (if t.isLeaf then 1 else 0) :: List.replicate 7 0

def fractionOf (w : UInt32) : Single :=
  .ofRatio false (w.toNat / 0x100) 0x1000000

def draw (block : ChaCha.State) : Material :=
  .ofLight ⟨fractionOf block[0], fractionOf block[1], fractionOf block[2]⟩
    ⟨fractionOf block[3], fractionOf block[4], fractionOf block[5]⟩

/-- The light of a terminal is drawn from a generator of its own, so that it does not depend on which
terminals were seen before. -/
def seeded (seed : UInt64) : Resolver := fun t =>
  draw (ChaCha.block (key seed t))

end Resolver

end VoxelOctree
