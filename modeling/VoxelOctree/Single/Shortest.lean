import VoxelOctree.Decimal
import VoxelOctree.Single

/-!
The shortest decimal that reads back as a given number, the nearest one of that length.

Decimal grids are tried from coarse to fine. On each grid only the two neighbours of the value can
read back, and the first grid on which one does has the fewest digits.
-/

namespace VoxelOctree

def Decimal.toSingle (negative : Bool) (d : Decimal) : Single :=
  Single.ofRatio negative d.numerator d.denominator

namespace Single

/-- The neighbours of a value of `magnitude` units among the multiples of `10 ^ exponent`, the nearer
one first; of two equally near ones the even one. -/
def gridNeighbours (magnitude : Nat) (exponent : Int) : List Nat :=
  let num := magnitude * 10 ^ (-exponent).toNat
  let den := 2 ^ BinaryFormat.binary32.scale * 10 ^ exponent.toNat
  let near := roundHalfEven num den
  [near, if near = num / den then near + 1 else num / den]

def shortestFrom (a : Single) (exponent : Int) : Nat → Decimal
  | 0 => ⟨(gridNeighbours a.magnitude exponent).headD 0, exponent⟩
  | finer + 1 =>
    match (gridNeighbours a.magnitude exponent).find? fun digits =>
        decide (Decimal.toSingle a.negative ⟨digits, exponent⟩ = a) with
    | some digits => ⟨digits, exponent⟩
    | none => a.shortestFrom (exponent - 1) finer

def decimalBound (a : Single) : Int :=
  ((a.magnitude.log2 : Int) + 1 - BinaryFormat.binary32.scale) * 30103 / 100000 + 1

def shortest (a : Single) : Decimal :=
  if a.magnitude = 0 then ⟨0, 0⟩ else a.shortestFrom a.decimalBound 12

def text (a : Single) (style : DecimalStyle) : List Char :=
  if a.negative then '-' :: style.write a.shortest else style.write a.shortest

end Single

end VoxelOctree
