import VoxelOctree.LittleEndian

/-!
Rounding to nearest, ties to even, onto the finite values of a binary floating-point format.

A format's magnitudes are numbered in increasing order. The number of a magnitude, its ordinal, is
also its bit pattern without the sign, and an even ordinal has an even significand.
-/

namespace VoxelOctree

def roundHalfEven (num den : Nat) : Nat :=
  if 2 * (num % den) < den then num / den
  else if den < 2 * (num % den) then num / den + 1
  else num / den + num / den % 2

structure BinaryFormat where
  fractionBits : Nat
  exponentBits : Nat
  deriving DecidableEq, Repr

namespace BinaryFormat

def binary32 : BinaryFormat := ⟨23, 8⟩

def binary64 : BinaryFormat := ⟨52, 11⟩

/-- Magnitudes are counted in the smallest positive one, `2 ^ -scale`. -/
def scale (f : BinaryFormat) : Nat :=
  2 ^ (f.exponentBits - 1) - 2 + f.fractionBits

def infinity (f : BinaryFormat) : Nat :=
  (2 ^ f.exponentBits - 1) * 2 ^ f.fractionBits

def units (f : BinaryFormat) (ordinal : Nat) : Nat :=
  let exponent := ordinal / 2 ^ f.fractionBits
  let fraction := ordinal % 2 ^ f.fractionBits
  if exponent = 0 then fraction else (2 ^ f.fractionBits + fraction) * 2 ^ (exponent - 1)

/-- The ordinal nearest to `num / den` units. The significand is rounded at the place where it keeps
`fractionBits + 1` bits, and a carry out of it moves on to the next exponent by itself. -/
def nearest (f : BinaryFormat) (num den : Nat) : Nat :=
  let shift := (num / den).log2 - f.fractionBits
  min (shift * 2 ^ f.fractionBits + roundHalfEven num (den * 2 ^ shift)) f.infinity

end BinaryFormat

end VoxelOctree
