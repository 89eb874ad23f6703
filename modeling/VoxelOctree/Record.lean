import VoxelOctree.Error
import VoxelOctree.Single

namespace VoxelOctree

structure Material where
  emittance : Vec3 Single
  reflectance : Vec3 Single
  roughness : Single
  opacity : Single
  deriving DecidableEq, Repr

namespace Material

def ofLight (emittance reflectance : Vec3 Single) : Material :=
  ⟨emittance, reflectance, .zero, .zero⟩

def internal : Material :=
  ofLight (.fill .zero) (.fill .one)

end Material

structure Record where
  position : Vec3 Single
  orientation : Vec3 (Vec3 Single)
  size : Single
  material : Material
  children : Vector UInt32 8
  isLeaf : Bool
  isEmpty : Bool
  deriving DecidableEq, Repr

namespace Record

def identity : Vec3 (Vec3 Single) :=
  ⟨⟨.one, .zero, .zero⟩, ⟨.zero, .one, .zero⟩, ⟨.zero, .zero, .one⟩⟩

/-- What a record without children holds in place of a link. It is also the position of the first
record, so links count only in internal records. -/
def nullChild : UInt32 := 0

def terminal (position : Vec3 Single) (size : Nat) (material : Material) (isLeaf : Bool) : Record where
  position
  orientation := identity
  size := Single.ofNat size
  material
  children := Vector.replicate 8 nullChild
  isLeaf
  isEmpty := !isLeaf

def internal (position : Vec3 Single) (size : Nat) (children : Vector UInt32 8) : Record where
  position
  orientation := identity
  size := Single.ofNat size
  material := Material.internal
  children
  isLeaf := false
  isEmpty := false

def isInternal (r : Record) : Bool :=
  !r.isLeaf && !r.isEmpty

def rebase (offset : UInt32) (r : Record) : Except Fault Record :=
  if r.isInternal then
    if r.children.all fun c => decide (c.toNat + offset.toNat < UInt32.size) then
      .ok { r with children := r.children.map (· + offset) }
    else .error .addOverflow
  else .ok r

end Record

end VoxelOctree
