import VoxelOctree.Rounding
import VoxelOctree.Vec3

namespace VoxelOctree

structure Single where
  bits : UInt32
  deriving DecidableEq, Repr

namespace Single

def negative (a : Single) : Bool :=
  decide (0x80000000 ≤ a.bits.toNat)

def ordinal (a : Single) : Nat :=
  a.bits.toNat % 0x80000000

def isFinite (a : Single) : Bool :=
  decide (a.ordinal < BinaryFormat.binary32.infinity)

def isNaN (a : Single) : Bool :=
  decide (BinaryFormat.binary32.infinity < a.ordinal)

def ofOrdinal (negative : Bool) (ordinal : Nat) : Single :=
  ⟨UInt32.ofNat (if negative then 0x80000000 + ordinal else ordinal)⟩

def zero : Single := ⟨0⟩

def one : Single := ⟨0x3f800000⟩

def nan : Single := ⟨0x7fc00000⟩

def neg (a : Single) : Single :=
  ⟨a.bits ^^^ 0x80000000⟩

def magnitude (a : Single) : Nat :=
  BinaryFormat.binary32.units a.ordinal

def units (a : Single) : Int :=
  if a.negative then -(a.magnitude : Int) else a.magnitude

def ofRatio (negative : Bool) (num den : Nat) : Single :=
  ofOrdinal negative
    (BinaryFormat.binary32.nearest (num * 2 ^ BinaryFormat.binary32.scale) den)

def ofNat (n : Nat) : Single :=
  ofRatio false n 1

def quiet (a : Single) : Single :=
  ⟨a.bits ||| 0x00400000⟩

def addFinite (a b : Single) : Single :=
  let sum := a.units + b.units
  if sum = 0 then ofOrdinal (a.negative && b.negative) 0
  else ofOrdinal (decide (sum < 0)) (BinaryFormat.binary32.nearest sum.natAbs 1)

/-- The rounded sum. The first NaN among the terms is kept, and opposite infinities have none. -/
def add (a b : Single) : Single :=
  if a.isNaN then a.quiet
  else if b.isNaN then b.quiet
  else if a.isFinite && b.isFinite then addFinite a b
  else if a.isFinite then b
  else if b.isFinite then a
  else if a = b then a
  else nan

instance : Add Single := ⟨add⟩

instance : Neg Single := ⟨neg⟩

end Single

def Vec3.add (v w : Vec3 Single) : Vec3 Single :=
  v.zipWith (· + ·) w

end VoxelOctree
