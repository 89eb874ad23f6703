import VoxelOctree.Single

/-!
Double-precision magnitudes, given by their ordinals: products, quotients and powers of ten, each
rounded once.
-/

namespace VoxelOctree

namespace Double

def units (a : Nat) : Nat :=
  BinaryFormat.binary64.units a

def ofRatio (num den : Nat) : Nat :=
  BinaryFormat.binary64.nearest (num * 2 ^ BinaryFormat.binary64.scale) den

def isInfinite (a : Nat) : Bool :=
  decide (BinaryFormat.binary64.infinity ≤ a)

def mul (a b : Nat) : Nat :=
  BinaryFormat.binary64.nearest (units a * units b) (2 ^ BinaryFormat.binary64.scale)

def div (a b : Nat) : Nat :=
  BinaryFormat.binary64.nearest (units a * 2 ^ BinaryFormat.binary64.scale) (units b)

def tenPow (n : Nat) : Nat :=
  ofRatio (10 ^ n) 1

def maxTenPow : Nat := 308

def divTenPow (a n : Nat) : Nat :=
  if n ≤ maxTenPow then div a (tenPow n)
  else if a = 0 then 0
  else divTenPow (div a (tenPow maxTenPow)) (n - maxTenPow)
termination_by n
decreasing_by simp_all [maxTenPow]; omega

def mulTenPow? (a n : Nat) : Option Nat :=
  if n ≤ maxTenPow then
    let product := mul a (tenPow n)
    if isInfinite product then none else some product
  else if a = 0 then some 0
  else none

def toSingle (negative : Bool) (a : Nat) : Single :=
  .ofOrdinal negative (BinaryFormat.binary32.nearest (units a)
    (2 ^ (BinaryFormat.binary64.scale - BinaryFormat.binary32.scale)))

end Double

end VoxelOctree
