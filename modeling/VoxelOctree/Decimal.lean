import VoxelOctree.LittleEndian

namespace VoxelOctree

/-- The number `digits * 10 ^ exponent`. -/
structure Decimal where
  digits : Nat
  exponent : Int
  deriving DecidableEq, Repr

namespace Decimal

def numerator (d : Decimal) : Nat :=
  d.digits * 10 ^ d.exponent.toNat

def denominator (d : Decimal) : Nat :=
  10 ^ (-d.exponent).toNat

def leadingExponent (d : Decimal) : Int :=
  d.exponent + (Nat.toDigits 10 d.digits).length - 1

def positional (d : Decimal) : List Char :=
  let cs := Nat.toDigits 10 d.digits
  if 0 ≤ d.exponent then cs ++ List.replicate d.exponent.toNat '0' ++ ['.', '0']
  else
    let places := (-d.exponent).toNat
    let padded := List.replicate (places + 1 - cs.length) '0' ++ cs
    padded.take (padded.length - places) ++ '.' :: padded.drop (padded.length - places)

def scientific (d : Decimal) : List Char :=
  let exponent := d.leadingExponent
  let mark := if 0 ≤ exponent then ['e', '+'] else ['e', '-']
  let mantissa := match Nat.toDigits 10 d.digits with
    | first :: second :: rest => first :: '.' :: second :: rest
    | cs => cs
  mantissa ++ mark ++ Nat.toDigits 10 exponent.natAbs

end Decimal

/-- The leading exponents that are written positionally; all others are written scientifically. -/
structure DecimalStyle where
  lowest : Int
  highest : Int
  deriving DecidableEq, Repr

def DecimalStyle.write (style : DecimalStyle) (d : Decimal) : List Char :=
  if style.lowest ≤ d.leadingExponent ∧ d.leadingExponent ≤ style.highest then d.positional
  else d.scientific

end VoxelOctree
